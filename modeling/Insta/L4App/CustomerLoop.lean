import Mathlib.Data.Finset.Card
import Insta.L4App.System

/-!
# The customer synchronisation loop

Stripe queues an event for every customer the app creates and for every
change the app makes to one; the webhook handler consumes the events and, in
doing so, may create and change customers. `customerLoop` closes the loop:
its labels are the positions in the queue from which Stripe delivers, in any
order. An event the handler raises on is consumed too.

* `customerLoop_drains_iff`: the queue runs empty in every run iff no queued
  event would import a customer that has no name.
* What bounds the named ones is the unique index on usernames: an import
  takes the customer's name for good (`Held`), since every later delivery
  writes that same name, and the second customer that the import creates has
  the same name again, so its own import is refused.
* Without a name nothing is refused: the row stays linked to the first
  customer, and the event of the second one finds no row
  (`unnamed_never_drains`).
-/
namespace Insta.Web

open Insta.Core Insta.Store Insta.Store.App Insta.Model Insta.Service

/-- The world after the event at `i` left the queue. -/
def dequeue (w : World) (i : Nat) : World :=
  { w with stripe := { w.stripe with outbox := w.stripe.outbox.eraseIdx i } }

def deliver (lib : Lib) (w : World) (i : Nat) : Option World :=
  w.stripe.outbox[i]?.map fun e => serve lib (dequeue w i) ⟨none, .webhooksStripe (some e), []⟩

/-- Only events about created and updated customers are queued. -/
def CustomerQueue (w : World) : Prop := ∀ e ∈ w.stripe.outbox, EventType.imports e.type = true

def customerLoop (lib : Lib) : LTS World Nat := LTS.ofFn CustomerQueue (deliver lib)

/-- Every run from `w` is finite, and one that cannot go on has consumed
the queue. -/
def Drains (lib : Lib) (w : World) : Prop :=
  (customerLoop lib).Terminates w ∧
  ∀ is w', (customerLoop lib).Run w is w' → (∀ i w'', ¬ (customerLoop lib).step w' i w'') →
    w'.stripe.outbox = []

/-- The state the handler of the event at `i` starts in. -/
def atHandler (w : World) (i : Nat) : World := { dequeue w i with script := [] }

@[simp] theorem atHandler_outbox (w : World) (i : Nat) :
    (atHandler w i).stripe.outbox = w.stripe.outbox.eraseIdx i := rfl

theorem known_atHandler {w : World} {i : Nat} {k : Customer} : Known (atHandler w i) k ↔ Known w k :=
  ⟨fun h => ⟨h.found, h.live⟩, fun h => ⟨h.found, h.live⟩⟩

theorem deliver_eq {lib : Lib} {w : World} {i : Nat} {e : Event} (he : w.stripe.outbox[i]? = some e)
    (ht : EventType.imports e.type = true) :
    deliver lib w i = some ((getCustomerFromStripe lib e.object.id).run (atHandler w i)).2 := by
  unfold deliver
  rw [he, Option.map_some, ← webhooksStripe_of_imports lib ht]
  rfl

/-- A delivery: nothing but the event is gone, or a linked row was
overwritten, or a customer was imported. -/
theorem deliver_cases {lib : Lib} {w w' : World} {i : Nat} (hq : CustomerQueue w)
    (h : deliver lib w i = some w') : ∃ e, w.stripe.outbox[i]? = some e ∧
      (w' = atHandler w i ∨
      (∃ k r t, Known w k ∧ r ∈ w.db.users.rows ∧ r.stripeCustomerId = some k.id ∧
        w.db.users.modify r.id (writtenColumns r (importOver lib w.db.users r k)).apply = some t ∧
        w' = (atHandler w i).setUsers t) ∨
      ∃ k x k', Known w k ∧ k.id = e.object.id ∧ userOf w k.id = none ∧
        (k.name = none ∨ ∀ r ∈ w.db.users.rows, r.username ≠ k.name) ∧ Imported (atHandler w i) k x k' w') := by
  cases he : w.stripe.outbox[i]? with
  | none => simp [deliver, he] at h
  | some e =>
    rw [deliver_eq he (hq e (List.mem_of_getElem? he))] at h
    cases h
    refine ⟨e, rfl, ?_⟩
    rcases getCustomer_cases lib (w := atHandler w i) rfl e.object.id with
      h | ⟨k, r, t, hk, hid, hu, ht, h⟩ | ⟨k, t, x, k', hk, hid, hu, ht, h⟩
    · exact .inl h
    · have hr := mem_of_userOf hu
      exact .inr (.inl ⟨k, r, t, known_atHandler.1 hk, hr.1, hid ▸ hr.2, ht, h⟩)
    · exact .inr (.inr ⟨k, x, k', known_atHandler.1 hk, hid, hid ▸ hu, insert_importRow_iff.1 ⟨t, ht⟩, h⟩)

/-! ## An unnamed import starts an endless chain -/

/-- The event is about a customer without a name that no user is linked
to. -/
def ImportsUnnamed (w : World) (e : Event) : Prop :=
  ∃ k, Known w k ∧ k.id = e.object.id ∧ k.name = none ∧ userOf w k.id = none

/-- Delivering such an event queues another one. -/
theorem deliver_unnamed (lib : Lib) {w : World} {i : Nat} {e : Event} (he : w.stripe.outbox[i]? = some e)
    (ht : EventType.imports e.type = true) (hu : ImportsUnnamed w e) : ∃ w', deliver lib w i = some w' ∧
      ∃ e' ∈ w'.stripe.outbox, EventType.imports e'.type = true ∧ ImportsUnnamed w' e' := by
  obtain ⟨k, hk, hid, hname, hlink⟩ := hu
  refine ⟨_, deliver_eq he ht, ?_⟩
  rw [← hid, getCustomer_of_known lib rfl (known_atHandler.2 hk), show userOf (atHandler w i) k.id = none from hlink]
  obtain ⟨t, hins⟩ := insert_importRow_iff.2 (.inl hname)
  obtain ⟨x, k', w', hrun, himp⟩ := saveImport_new lib (w := atHandler w i) rfl
    (known_atHandler.2 hk) hins
  rw [hrun]
  obtain ⟨more, hout, -⟩ := himp.outbox
  refine ⟨⟨.customerCreated, { id := k'.id }⟩, ?_, rfl, k', himp.known_new, rfl, himp.name.trans hname,
    himp.userOf_new (himp.unnamed hname)⟩
  rw [hout]
  simp

theorem not_terminates_of_unnamed {lib : Lib} {w : World} {e : Event} (he : e ∈ w.stripe.outbox)
    (ht : EventType.imports e.type = true) (hu : ImportsUnnamed w e) : ¬ (customerLoop lib).Terminates w := by
  refine LTS.not_terminates_of_invariant
    (I := fun w => ∃ e ∈ w.stripe.outbox, EventType.imports e.type = true ∧ ImportsUnnamed w e)
    (fun w hw => ?_) ⟨e, he, ht, hu⟩
  obtain ⟨e, he, ht, hu⟩ := hw
  obtain ⟨i, hi⟩ := List.mem_iff_getElem?.1 he
  obtain ⟨w', hstep, hnext⟩ := deliver_unnamed lib hi ht hu
  exact ⟨i, w', hstep, hnext⟩

/-! ## Names are taken for good -/

/-- Some user has the name `n`, and no delivery will give it another: the
customer it is linked to, if there is one, is called `n`. -/
def Held (w : World) (n : String) : Prop :=
  ∃ r ∈ w.db.users.rows, r.username = some n ∧
    ∀ k, Known w k → r.stripeCustomerId = some k.id → k.name = some n

theorem held_atHandler {w : World} {i : Nat} {n : String} : Held (atHandler w i) n ↔ Held w n :=
  exists_congr fun _ => and_congr_right fun _ => and_congr_right fun _ =>
    forall_congr' fun _ => imp_congr_left known_atHandler

theorem held_over {lib : Lib} {w : World} {i : Nat} {n : String} {k : Customer} {r : UserRow}
    {t : Table UserRow} (hk : Known w k) (hr : r ∈ w.db.users.rows) (hlink : r.stripeCustomerId = some k.id)
    (ht : w.db.users.modify r.id (writtenColumns r (importOver lib w.db.users r k)).apply = some t)
    (h : Held w n) : Held ((atHandler w i).setUsers t) n := by
  obtain ⟨x, hx, hname, hcust⟩ := h
  obtain ⟨hu, -, hl⟩ := importOver_written lib w.db.users r k
  by_cases hid : x.id = r.id
  · obtain rfl : x = r := w.db.users.eq_of_rowId hx hr hid
    refine ⟨_, (mem_saved hr ht).2 (.inr rfl), hu.trans (hcust k hk hlink), fun k₁ hk₁ he => ?_⟩
    exact hcust k₁ ⟨hk₁.found, hk₁.live⟩ (hl ▸ he)
  · exact ⟨x, (mem_saved hr ht).2 (.inl ⟨hx, hid⟩), hname, fun k₁ hk₁ => hcust k₁ ⟨hk₁.found, hk₁.live⟩⟩

theorem held_imported {w w' : World} {n : String} {k k' : Customer} {x : UserRow}
    (himp : Imported w k x k' w') (h : Held w n) : Held w' n := by
  obtain ⟨r, hr, hname, hcust⟩ := h
  refine ⟨r, by rw [himp.rows]; exact List.mem_append.2 (.inl hr), hname, fun k₁ hk₁ he => ?_⟩
  have hne : k₁.id ≠ k'.id := fun hid => himp.fresh_link r hr (hid ▸ he)
  exact hcust k₁ ((himp.known_iff hne).1 hk₁) he

/-- No delivery frees a name. -/
theorem held_deliver {lib : Lib} {w w' : World} {i : Nat} {n : String} (hq : CustomerQueue w)
    (h : deliver lib w i = some w') (hn : Held w n) : Held w' n := by
  obtain ⟨e, -, rfl | ⟨k, r, t, hk, hr, hlink, ht, rfl⟩ | ⟨k, x, k', -, -, -, -, himp⟩⟩ := deliver_cases hq h
  · exact held_atHandler.2 hn
  · exact held_over hk hr hlink ht hn
  · exact held_imported himp (held_atHandler.2 hn)

/-- The name of an imported customer is taken, whichever of the two
customers the row is linked to. -/
theorem held_of_imported {w w' : World} {n : String} {k k' : Customer} {x : UserRow}
    (hk : Known w k) (himp : Imported w k x k' w') (hn : k.name = some n) : Held w' n := by
  refine ⟨x, by rw [himp.rows]; simp, himp.username.trans hn, fun k₁ hk₁ he => ?_⟩
  rcases himp.link with hl | hl <;> rw [hl] at he
  · rw [hk₁.eq himp.known_new (Option.some.inj he).symm, himp.name, hn]
  · rw [hk₁.eq ((himp.known_iff himp.other.symm).2 hk) (Option.some.inj he).symm, hn]

/-! ## The measure -/

/-- The names of the account's customers. -/
def names (w : World) : Finset String := (w.stripe.customers.filterMap Customer.name).toFinset

theorem mem_names {w : World} {n : String} : n ∈ names w ↔ ∃ k ∈ w.stripe.customers, k.name = some n := by
  simp [names]

open Classical in
/-- The names that can still be imported. -/
noncomputable def free (w : World) : Finset String := (names w).filter fun n => ¬ Held w n

theorem mem_free {w : World} {n : String} : n ∈ free w ↔ n ∈ names w ∧ ¬ Held w n := by
  simp [free]

theorem names_imported {w w' : World} {k k' : Customer} {x : UserRow} (hk : k ∈ w.stripe.customers)
    (himp : Imported w k x k' w') : names w' = names w := by
  ext n
  rw [mem_names, mem_names, himp.customers]
  constructor
  · rintro ⟨a, ha, hn⟩
    rcases List.mem_append.1 ha with ha | ha
    · exact ⟨a, ha, hn⟩
    · rw [List.mem_singleton.1 ha, himp.name] at hn
      exact ⟨k, hk, hn⟩
  · rintro ⟨a, ha, hn⟩
    exact ⟨a, List.mem_append.2 (.inl ha), hn⟩

/-- The names of the account do not change. -/
theorem names_deliver {lib : Lib} {w w' : World} {i : Nat} (hq : CustomerQueue w)
    (h : deliver lib w i = some w') : names w' = names w := by
  obtain ⟨e, -, rfl | ⟨k, r, t, -, -, -, -, rfl⟩ | ⟨k, x, k', hk, -, -, -, himp⟩⟩ := deliver_cases hq h
  · rfl
  · rfl
  · exact names_imported (w := atHandler w i) hk.mem himp

theorem free_deliver {lib : Lib} {w w' : World} {i : Nat} (hq : CustomerQueue w)
    (h : deliver lib w i = some w') : free w' ⊆ free w := by
  intro n hn
  rw [mem_free, names_deliver hq h] at hn
  exact mem_free.2 ⟨hn.1, fun hw => hn.2 (held_deliver hq h hw)⟩

/-- Either a name was used up, or the queue got shorter. -/
noncomputable def loopMeasure (w : World) : Nat × Nat := ((free w).card, w.stripe.outbox.length)

theorem length_atHandler {w : World} {i : Nat} {e : Event} (he : w.stripe.outbox[i]? = some e) :
    (atHandler w i).stripe.outbox.length < w.stripe.outbox.length := by
  obtain ⟨hi, -⟩ := List.getElem?_eq_some_iff.1 he
  rw [atHandler_outbox, List.length_eraseIdx_of_lt hi]
  omega

theorem loopMeasure_deliver {lib : Lib} {w w' : World} {i : Nat} (hq : CustomerQueue w)
    (hn : ∀ e ∈ w.stripe.outbox, ¬ ImportsUnnamed w e) (h : deliver lib w i = some w') :
    Prod.Lex (· < ·) (· < ·) (loopMeasure w') (loopMeasure w) := by
  have hle := Finset.card_le_card (free_deliver hq h)
  -- a delivery that imports nothing takes its event from the queue
  have hshort : w'.stripe.outbox.length < w.stripe.outbox.length →
      Prod.Lex (· < ·) (· < ·) (loopMeasure w') (loopMeasure w) := by
    intro hlen
    rw [Prod.lex_def]
    rcases Nat.lt_or_eq_of_le hle with hlt | heq
    · exact .inl hlt
    · exact .inr ⟨heq, hlen⟩
  obtain ⟨e, he, rfl | ⟨k, r, t, -, -, -, -, rfl⟩ | ⟨k, x, k', hk, hid, hu, hfree, himp⟩⟩ := deliver_cases hq h
  · exact hshort (length_atHandler he)
  · exact hshort (length_atHandler he)
  · -- an import uses up the customer's name
    have hnamed : k.name ≠ none := fun hnone => hn e (List.mem_of_getElem? he) ⟨k, hk, hid, hnone, hu⟩
    obtain ⟨n, hname⟩ := Option.ne_none_iff_exists'.1 hnamed
    have hwas : n ∈ free w := by
      refine mem_free.2 ⟨mem_names.2 ⟨k, hk.mem, hname⟩, ?_⟩
      rintro ⟨r, hr, hrn, -⟩
      exact (hfree.resolve_left hnamed) r hr (hrn.trans hname.symm)
    have hnot : n ∉ free w' := fun hm =>
      (mem_free.1 hm).2 (held_of_imported (known_atHandler.2 hk) himp hname)
    exact .left _ _ (Finset.card_lt_card (Finset.ssubset_iff_subset_ne.2
      ⟨free_deliver hq h, fun he => hnot (he ▸ hwas)⟩))

/-! ## The loop -/

/-- What the loop keeps: the queue is about customers, and no queued event
imports one without a name. -/
structure Bounded (w : World) : Prop where
  queue : CustomerQueue w
  named : ∀ e ∈ w.stripe.outbox, ¬ ImportsUnnamed w e

theorem importsUnnamed_over {lib : Lib} {w : World} {i : Nat} {k : Customer} {r : UserRow} {t : Table UserRow}
    {e : Event} (hr : r ∈ w.db.users.rows)
    (ht : w.db.users.modify r.id (writtenColumns r (importOver lib w.db.users r k)).apply = some t)
    (h : ImportsUnnamed ((atHandler w i).setUsers t) e) : ImportsUnnamed w e := by
  obtain ⟨k₁, hk₁, hid, hname, hu⟩ := h
  refine ⟨k₁, ⟨hk₁.found, hk₁.live⟩, hid, hname, userOf_eq_none_iff.2 fun x hx he => ?_⟩
  have hall := userOf_eq_none_iff.1 hu
  by_cases hxr : x.id = r.id
  · obtain rfl : x = r := w.db.users.eq_of_rowId hx hr hxr
    exact hall _ ((mem_saved hr ht).2 (.inr rfl)) ((importOver_written lib w.db.users x k).2.2.trans he)
  · exact hall x ((mem_saved hr ht).2 (.inl ⟨hx, hxr⟩)) he

/-- The import of a named customer makes no event an unnamed import. -/
theorem importsUnnamed_imported {w w' : World} {k k' : Customer} {x : UserRow} {e : Event}
    (himp : Imported w k x k' w') (hnamed : k.name ≠ none) (h : ImportsUnnamed w' e) :
    e.object.id ≠ k'.id ∧ ImportsUnnamed w e := by
  obtain ⟨k₁, hk₁, hid, hname, hu⟩ := h
  have hne : k₁.id ≠ k'.id := by
    intro he
    rw [hk₁.eq himp.known_new he] at hname
    exact hnamed (himp.name ▸ hname)
  refine ⟨hid ▸ hne, k₁, (himp.known_iff hne).1 hk₁, hid, hname, userOf_eq_none_iff.2 fun r hr => ?_⟩
  exact userOf_eq_none_iff.1 hu r (by rw [himp.rows]; exact List.mem_append.2 (.inl hr))

theorem bounded_deliver {lib : Lib} {w w' : World} {i : Nat} (hb : Bounded w)
    (h : deliver lib w i = some w') : Bounded w' := by
  have hsub : ∀ e ∈ w.stripe.outbox.eraseIdx i, e ∈ w.stripe.outbox :=
    fun e he => (List.eraseIdx_sublist _ _).subset he
  obtain ⟨e₀, he₀, rfl | ⟨k, r, t, -, hr, -, ht, rfl⟩ | ⟨k, x, k', hk, hid, hu, -, himp⟩⟩ :=
    deliver_cases hb.queue h
  · refine ⟨fun e he => hb.queue e (hsub e he), ?_⟩
    rintro e he ⟨k, hk, hid, hname, hu⟩
    exact hb.named e (hsub e he) ⟨k, known_atHandler.1 hk, hid, hname, hu⟩
  · exact ⟨fun e he => hb.queue e (hsub e he),
      fun e he hun => hb.named e (hsub e he) (importsUnnamed_over hr ht hun)⟩
  · have hnamed : k.name ≠ none := fun hnone =>
      hb.named e₀ (List.mem_of_getElem? he₀) ⟨k, hk, hid, hnone, hu⟩
    obtain ⟨more, hout, hmore⟩ := himp.outbox
    -- the events queued by the import are about the customer it created
    have hnew : ∀ e ∈ w'.stripe.outbox, e ∈ w.stripe.outbox ∨
        EventType.imports e.type = true ∧ e.object.id = k'.id := by
      intro e he
      rw [hout] at he
      rcases List.mem_append.1 he with he | he
      · exact .inl (hsub e he)
      · rcases List.mem_cons.1 he with rfl | he
        · exact .inr ⟨rfl, rfl⟩
        · rw [hmore e he]; exact .inr ⟨rfl, rfl⟩
    constructor
    · intro e he
      exact (hnew e he).elim (hb.queue e) And.left
    · intro e he hun
      obtain ⟨hne, k₁, hk₁, hid₁, hname₁, hu₁⟩ := importsUnnamed_imported himp hnamed hun
      rcases hnew e he with he | ⟨-, he⟩
      · exact hb.named e he ⟨k₁, known_atHandler.1 hk₁, hid₁, hname₁, hu₁⟩
      · exact hne he

theorem terminates_of_bounded {lib : Lib} {w : World} (hb : Bounded w) : (customerLoop lib).Terminates w :=
  LTS.terminates_of_measure (I := Bounded) loopMeasure
    (fun _ _ _ hw h => ⟨bounded_deliver hw h, loopMeasure_deliver hw.queue hw.named h⟩) hb

/-- A queue that is not empty has an event to deliver. -/
theorem outbox_nil_of_stuck {lib : Lib} {w : World} (h : ∀ i w', ¬ (customerLoop lib).step w i w') :
    w.stripe.outbox = [] := by
  cases hq : w.stripe.outbox with
  | nil => rfl
  | cons e es =>
    have hsome : (deliver lib w 0).isSome = true := by unfold deliver; rw [hq]; rfl
    obtain ⟨w', hw'⟩ := Option.isSome_iff_exists.1 hsome
    exact absurd hw' (h 0 w')

/-- From every database state: the loop consumes the queue iff no queued
event is about a customer without a name that no user is linked to. -/
theorem customerLoop_drains_iff (lib : Lib) (w : World) (hq : CustomerQueue w) :
    Drains lib w ↔ ∀ e ∈ w.stripe.outbox, ∀ k, Known w k → k.id = e.object.id → k.name = none →
      ∃ r ∈ w.db.users.rows, r.stripeCustomerId = some k.id := by
  have hiff : (∀ e ∈ w.stripe.outbox, ∀ k, Known w k → k.id = e.object.id → k.name = none →
      ∃ r ∈ w.db.users.rows, r.stripeCustomerId = some k.id) ↔
      ∀ e ∈ w.stripe.outbox, ¬ ImportsUnnamed w e := by
    refine forall₂_congr fun e _ => ?_
    constructor
    · rintro h ⟨k, hk, hid, hname, hu⟩
      obtain ⟨r, hr, he⟩ := h k hk hid hname
      exact userOf_eq_none_iff.1 hu r hr he
    · intro h k hk hid hname
      by_contra hall
      push Not at hall
      exact h ⟨k, hk, hid, hname, userOf_eq_none_iff.2 hall⟩
  rw [hiff]
  constructor
  · intro hd e he hun
    exact not_terminates_of_unnamed he (hq e he) hun hd.1
  · intro hn
    exact ⟨terminates_of_bounded ⟨hq, hn⟩, fun is w' _ hstuck => outbox_nil_of_stuck hstuck⟩

theorem named_customer_drains : CustomerQueue (oneCustomer (some "bob")) ∧
    Drains plainLib (oneCustomer (some "bob")) := by
  have hq : CustomerQueue (oneCustomer (some "bob")) := by
    intro e he
    rw [List.mem_singleton.1 he]
    rfl
  refine ⟨hq, (customerLoop_drains_iff plainLib _ hq).2 fun e _ k hk _ hname => ?_⟩
  rw [List.mem_singleton.1 hk.mem] at hname
  cases hname

/-- A customer created in Stripe without a name: its event starts an endless
chain of users and customers. -/
theorem unnamed_never_drains : ¬ Drains plainLib (oneCustomer none) := by
  have hun : ImportsUnnamed (oneCustomer none) ⟨.customerCreated, { id := "cus_1" }⟩ :=
    ⟨{ id := "cus_1", name := none, email := some "bob@example.com" }, ⟨rfl, rfl⟩, rfl, rfl, by decide⟩
  intro h
  exact not_terminates_of_unnamed (List.mem_singleton.2 rfl) rfl hun h.1

end Insta.Web
