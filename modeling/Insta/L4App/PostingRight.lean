import Insta.L4App.ActiveSubscription

/-!
# Where the right to post comes from

A user who is no admin may post with an active subscription, and a row of
the subscriptions table is active because a webhook wrote it. `Reported` is
what that webhook had: Stripe's signature, an event about an active
subscription, its customer linked to the user and its product known.

* `active_row_reported`: a row that became active in a run was written, as it
  is, by such an event.
* `posting_right_reported`: so in every run, whatever requests are made,
  whoever may post was reported by Stripe under the customer they were linked
  to at that time, and the product has room for their next post.
-/
namespace Insta.Web

open Insta.Core Insta.Store Insta.Store.App Insta.Model Insta.Service

/-- The event reports the subscription of the row as active. -/
structure Reported (a : World) (e : Event) (s : SubscriptionRow) : Prop where
  syncs : EventType.syncs e.type = true
  status : e.object.status = "active"
  id : s.stripeSubscriptionId = some e.object.id
  customer : s.stripeCustomerId = some e.object.customer
  user : ∃ r ∈ a.db.users.rows, r.id = s.userId ∧ r.stripeCustomerId = some e.object.customer
  product : ∃ p ∈ a.db.products.rows, p.id = s.productId ∧
    ∃ q qs, e.object.items = some (q :: qs) ∧ p.stripeProductId = some q

/-! ## Rows that become active -/

/-- What an upsert writes of a row that was not there. -/
theorem upserted_row {t t' : Table SubscriptionRow} {user : UserRow} {product : ProductRow} {o : StripeObject}
    (h : upsertSubscription t user product o = some t') {s : SubscriptionRow} (hs : s ∈ t'.rows) (hnew : s ∉ t.rows) :
    s.userId = user.id ∧ s.stripeSubscriptionId = some o.id ∧ s.productId = product.id ∧
      s.stripeCustomerId = user.stripeCustomerId ∧ s.active = some (o.status == "active") := by
  rcases rows_upsertSubscription h with ⟨r, hr, hrows⟩ | ⟨-, hrows⟩ <;> rw [hrows] at hs
  · obtain ⟨hmem, hkey⟩ := Table.mem_of_first hr
    simp only [subscriptionKey, Bool.and_eq_true, beq_iff_eq] at hkey
    obtain ⟨x, hx, rfl⟩ := List.mem_map.1 hs
    by_cases hid : x.id = r.id
    · rw [if_pos hid, t.eq_of_rowId hx hmem hid]
      exact ⟨hkey.1.1, hkey.1.2, rfl, rfl, rfl⟩
    · rw [if_neg hid] at hnew
      exact absurd hx hnew
  · rcases List.mem_append.1 hs with hs | hs
    · exact absurd hs hnew
    · rw [List.mem_singleton.1 hs]
      exact ⟨rfl, rfl, rfl, rfl, rfl⟩

/-- A subscription event that stores a row reports it. -/
theorem reported_of_sync {lib : Lib} {a : World} {actor : Option Nat} {script : List (Option Fault)} {e : Event}
    {s : SubscriptionRow} (hsyncs : EventType.syncs e.type = true) (hactive : s.active = some true)
    (hold : s ∉ a.db.subscriptions.rows)
    (hnew : s ∈ (serve lib a ⟨actor, .webhooksStripe (some e), script⟩).db.subscriptions.rows) : Reported a e s := by
  have hrun : serve lib a ⟨actor, .webhooksStripe (some e), script⟩ =
      ((syncSubscriptionFromStripe e.object).run { a with script := script }).2 := by
    show ((webhooksStripe lib (some e)).run { a with script := script }).2 = _
    rw [webhooksStripe_of_syncs lib hsyncs]
  rw [hrun] at hnew
  cases ht : eventTarget a e.object with
  | none =>
    rw [syncSubscription_of_no_target (w := { a with script := script }) ht] at hnew
    exact absurd hnew hold
  | some target =>
    obtain ⟨user, product⟩ := target
    obtain ⟨t, hup, hsync⟩ := syncSubscription_of_target (w := { a with script := script }) ht
    rw [hsync] at hnew
    obtain ⟨huser, hid, hproduct, hcustomer, hstatus⟩ := upserted_row hup hnew hold
    obtain ⟨q, qs, hof, hitems, hprod⟩ := eventTarget_eq_some_iff.1 ht
    obtain ⟨hmem, hlink⟩ := mem_of_userOf hof
    obtain ⟨hpmem, hpid⟩ := productOf_mem hprod
    rw [hstatus] at hactive
    exact ⟨hsyncs, by simpa using hactive, hid, hcustomer.trans hlink, ⟨user, hmem, huser.symm, hlink⟩,
      product, hpmem, hproduct.symm, q, qs, hitems, hpid⟩

theorem active_row_reported {lib : Lib} {w₀ w : World} {ls : List Label} (h : (system lib).Run w₀ ls w)
    {s : SubscriptionRow} (hs : s ∈ w.db.subscriptions.rows) (hactive : s.active = some true)
    (h₀ : s ∉ w₀.db.subscriptions.rows) :
    ∃ a call b e, (system lib).StepOf w₀ ls w a (.call call) b ∧ call.req = .webhooksStripe (some e) ∧
      s ∉ a.db.subscriptions.rows ∧ s ∈ b.db.subscriptions.rows ∧ Reported a e s := by
  obtain ⟨a, l, b, hof, ha, hb⟩ := h.exists_step (P := fun x => s ∈ x.db.subscriptions.rows) h₀ hs
  rcases step_cases hof.step with ⟨⟨actor, q, script⟩, rfl, rfl⟩ | hdb
  · by_cases hsync : ∃ e, q = .webhooksStripe (some e) ∧ EventType.syncs e.type = true
    · obtain ⟨e, rfl, hsyncs⟩ := hsync
      exact ⟨a, _, _, e, hof, rfl, ha, hb, reported_of_sync hsyncs hactive ha hb⟩
    · refine absurd (noNewActive lib a ⟨actor, q, script⟩ (fun e he => ?_) s hb hactive) ha
      by_contra hsyncs
      exact hsync ⟨e, he, by simpa using hsyncs⟩
  · rw [hdb] at hb
    exact absurd hb ha

/-! ## Who may post -/

theorem posting_right_reported (lib : Lib) (w₀ w : World) (ls : List Label)
    (h₀ : ∀ s ∈ w₀.db.subscriptions.rows, s.active ≠ some true) (h : (system lib).Run w₀ ls w) (me : UserRow)
    (hme : me.role ≠ .admin) (hmay : allowed w.db (some me) .create (.class_ .post) = .ok true) :
    ∃ s ∈ w.db.subscriptions.rows, s.userId = me.id ∧
      (∃ p ∈ w.db.products.rows, p.id = s.productId ∧ (planOf p.name).room (postsCount w.db me.id) = true) ∧
      ∃ a call b e, (system lib).StepOf w₀ ls w a (.call call) b ∧ call.req = .webhooksStripe (some e) ∧
        s ∉ a.db.subscriptions.rows ∧ s ∈ b.db.subscriptions.rows ∧ Reported a e s := by
  obtain ⟨s, plan, hs, hplan, hroom⟩ := (allowed_create_iff hme).1 hmay
  obtain ⟨hmem, hkey⟩ := Table.mem_of_first hs
  simp only [Bool.and_eq_true, beq_iff_eq] at hkey
  refine ⟨s, hmem, hkey.1, ?_, active_row_reported h hmem hkey.2 fun hold => h₀ s hold hkey.2⟩
  unfold currentPlan at hplan
  cases hp : w.db.products.find s.productId with
  | none => rw [hp] at hplan; cases hplan
  | some p =>
    rw [hp] at hplan
    cases hplan
    exact ⟨p, (Table.mem_of_find hp).1, (Table.mem_of_find hp).2, hroom⟩

/-- Stripe reports the subscription of Alice to the plan for two posts. -/
def aliceReported : Event :=
  ⟨.subscriptionCreated, { id := "sub_1", customer := "cus_1", items := some ["prod_2"], status := "active" }⟩

theorem alice_reported : ∃ w, (system plainLib).Run shop [.call (delivery aliceReported)] w ∧
    allowed w.db (some aliceRow) .create (.class_ .post) = .ok true ∧
    ∃ s ∈ w.db.subscriptions.rows, s.userId = 1 ∧ ∃ a call b e,
      (system plainLib).StepOf shop [.call (delivery aliceReported)] w a (.call call) b ∧
      call.req = .webhooksStripe (some e) ∧ s ∉ a.db.subscriptions.rows ∧ s ∈ b.db.subscriptions.rows ∧
      Reported a e s := by
  have hrun : (system plainLib).Run shop [.call (delivery aliceReported)]
      (next plainLib shop (.call (delivery aliceReported))) := .cons rfl (.nil _)
  have hmay : allowed (next plainLib shop (.call (delivery aliceReported))).db (some aliceRow) .create
      (.class_ .post) = .ok true := by decide +kernel
  obtain ⟨s, hs, huser, -, hreported⟩ := posting_right_reported plainLib shop _ _
    (fun s hs => absurd hs List.not_mem_nil) hrun aliceRow (by decide) hmay
  exact ⟨_, hrun, hmay, s, hs, huser, hreported⟩

end Insta.Web
