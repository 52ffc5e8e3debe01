import Insta.Core.Threads
import Insta.L4App.System

/-!
# Welcome jobs and the transaction that queues them

`send_welcome_email` is an `after_create` callback: it hands the job to
Sidekiq inside the open transaction, before `create_stripe_customer` calls
Stripe twice. The queue is not part of the transaction. A worker can take
the job at once, and sees only what is committed; and when a Stripe call
raises, the row is rolled back and the job is not.

Threads are creations of users and runs of `MailerJob#perform`:
* a creation begins, inserts, queues the job, calls `Stripe::Customer.create`,
  updates `stripe_customer_id`, calls `Stripe::Customer.update`, commits; a
  call that raises rolls back (`creation_serial`: without overlap these steps
  are `save`);
* a worker dequeues, finds the user, sends.

SQLite has one writer: a transaction begins when no other is open.

* `welcome_jobs`: every job a worker runs finds its user, and no job is left
  of a creation that was rolled back, in every run in which a job is dequeued
  only after the creation that queued it has ended and no Stripe call raises
  in a creation that has queued one.
* `welcome_jobs_lost`: without the first condition, and without the second.
-/
namespace Insta.Concurrency

open Insta.Core Insta.Store Insta.Store.App Insta.Model Insta.Service Insta.Web

/-- How a user comes to be: the attributes of a request, or a Stripe customer
that has no user. -/
inductive Source
  | params (p : UserPatch) (a : PasswordAttrs)
  | customer (k : Customer)

def Source.attrs : Source → PasswordAttrs
  | .params _ a => a
  | .customer _ => {}

/-- The record that is inserted; `none` when it is not valid. The import of a
customer does not validate. -/
def Source.record (lib : Lib) (users : Table UserRow) : Source → Option UserRow
  | .params p a =>
    let m := beforeValidation lib users none (p.apply newUser)
    if validUser lib users none m a then some m else none
  | .customer k => some (importNew lib users k)

def Source.nullRole : Source → Bool
  | .params p _ => p.role == some none
  | .customer _ => false

/-- The saves these are the steps of. -/
def Source.save (lib : Lib) : Source → App Unit
  | .params p a => do
    let _ ← create lib p a
  | .customer k => saveImport lib none k

/-- Where a creation is, with the row it inserted.
mirrors app/models/user.rb:42-47,59-61,89-106 -/
inductive Creation
  | requested (src : Source)
  | begun (src : Source)
  | inserted (r : UserRow) (a : PasswordAttrs)
  | enqueued (r : UserRow) (a : PasswordAttrs)
  | created (r : UserRow) (a : PasswordAttrs) (customer : String)
  | linked (x r : UserRow) (a : PasswordAttrs)
  | saved (r : UserRow) (a : PasswordAttrs)
  | committed (r : UserRow)
  | rolledBack (job : Option Nat)

/-- Where a run of the job is.
mirrors app/sidekiq/mailer_job.rb:6-9 -/
inductive Worker
  | idle
  | dequeued (user : Nat)
  | found (r : UserRow)
  | sent (r : UserRow)
  | undelivered (r : UserRow)
  | notFound (user : Nat)

inductive WelcomeThread
  | creation (c : Creation)
  | worker (p : Worker)

/-- What is committed, with the Stripe account and the queue; and the
database as the open transaction sees it. -/
structure Site where
  world : World
  opened : Option Db

namespace Site

/-- The world as the open transaction sees it. -/
def view (s : Site) : World := { s.world with db := s.opened.getD s.world.db }

/-- The transaction has come to `w`. -/
def put (s : Site) (w : World) : Site := ⟨{ w with db := s.world.db }, some w.db⟩

/-- The transaction is rolled back in `w`. -/
def fail (s : Site) (w : World) : Site := ⟨{ w with db := s.world.db }, none⟩

def commit (s : Site) : Site := ⟨s.view, none⟩

/-- A step of the transaction, which a raise ends. -/
def attempt {α : Type} (s : Site) (x : App α) (next : α → Creation) (job : Option Nat) : Site × Creation :=
  match x.run s.view with
  | (.ok a, w) => (s.put w, next a)
  | (.error _, w) => (s.fail w, .rolledBack job)

end Site

/-- The job a creation queues. -/
def welcomeJob (r : UserRow) (a : PasswordAttrs) : Option Nat :=
  if a.skipPasswordValidation then none else some r.id

/-- Validation and `INSERT`. -/
def insertRecord (lib : Lib) (src : Source) : App UserRow := do
  let w ← Act.get
  match src.record lib w.db.users with
  | none => Act.raise .recordInvalid
  | some m =>
    if src.nullRole then Act.raise .notNullViolation
    else
      match w.db.users.insert (insertedRow w m) with
      | none => Act.raise .recordNotUnique
      | some t => do
        Act.modify (·.setUsers t)
        pure (insertedRow w m)

def creationStep (lib : Lib) (s : Site) : Creation → Option (Site × Creation)
  | .requested src => if s.opened.isSome then none else some (⟨s.world, some s.world.db⟩, .begun src)
  | .begun src => some (s.attempt (insertRecord lib src) (.inserted · src.attrs) none)
  | .inserted r a => some (s.attempt (sendWelcomeEmail r a) (fun _ => .enqueued r a) none)
  | .enqueued r a =>
    some (s.attempt (customerCreate lib r.email r.username) (.created r a) (welcomeJob r a))
  | .created r a c =>
    let m := updated lib s.view.db.users r (linkPatch c)
    if validUser lib s.view.db.users (some r.id) m a then
      some (s.attempt (writeUser r.id (writtenColumns r m)) (fun _ => .linked (written r m) r a) (welcomeJob r a))
    else some (s, .saved r a)
  | .linked x r a => some (s.attempt (updateStripeCustomer x) (fun _ => .saved r a) (welcomeJob r a))
  | .saved r _ => some (s.commit, .committed r)
  | .committed _ | .rolledBack _ => none

/-- A worker reads committed rows. -/
def workerStep (s : Site) : Worker → Option (Site × Worker)
  | .idle =>
    match s.world.jobs with
    | [] => none
    | u :: rest => some ({ s with world := { s.world with jobs := rest } }, .dequeued u)
  | .dequeued u =>
    match s.world.db.users.find u with
    | none => some (s, .notFound u)
    | some r => some (s, .found r)
  | .found r =>
    match external.run s.world with
    | (.ok _, w) => some ({ s with world := w }, .sent r)
    | (.error _, w) => some ({ s with world := w }, .undelivered r)
  | .sent _ | .undelivered _ | .notFound _ => none

def welcomeStep (lib : Lib) (s : Site) : WelcomeThread → Option (Site × WelcomeThread)
  | .creation c => (creationStep lib s c).map fun p => (p.1, .creation p.2)
  | .worker p => (workerStep s p).map fun q => (q.1, .worker q.2)

/-- No transaction is open, the jobs in the queue are for committed users,
and any number of creations and workers have not begun. -/
structure WelcomeStart (s : Sys Site WelcomeThread) : Prop where
  closed : s.shared.opened = none
  jobs : ∀ u ∈ s.shared.world.jobs, s.shared.world.db.users.Has u
  threads : ∀ t ∈ s.threads, (∃ src, t = .creation (.requested src)) ∨ t = .worker .idle

def welcomeSystem (lib : Lib) : LTS (Sys Site WelcomeThread) Nat := interleave WelcomeStart (welcomeStep lib)

/-- No job was run for a user who was not there, and no creation was rolled
back that had queued one. -/
def WelcomeOk (s : Sys Site WelcomeThread) : Prop :=
  (∀ u, .worker (.notFound u) ∉ s.threads) ∧ ∀ u, .creation (.rolledBack (some u)) ∉ s.threads

/-- The job an open creation has queued. -/
def Creation.job : Creation → Option Nat
  | .enqueued r a | .created r a _ | .linked _ r a | .saved r a => welcomeJob r a
  | _ => none

def WelcomeThread.job : WelcomeThread → Option Nat
  | .creation c => c.job
  | .worker _ => none

/-- The next external call does not raise. -/
def calm (w : World) : Bool :=
  match w.script with
  | some _ :: _ => false
  | _ => true

/-- A worker dequeues a job of an ended creation only; Stripe answers the
calls of a creation that has queued a job. -/
def orderly (s : Sys Site WelcomeThread) (i : Nat) : Bool :=
  match s.threads[i]? with
  | some (.worker .idle) => s.shared.world.jobs.head?.all fun u => s.threads.all fun t => t.job != some u
  | some (.creation (.enqueued _ a)) => a.skipPasswordValidation || calm s.shared.world
  | some (.creation (.linked x _ a)) => a.skipPasswordValidation ||
    calm s.shared.world && (x.stripeCustomerId.bind (customer? s.shared.world)).isSome
  | _ => true

/-! ## The steps are those of a save -/

section Serial

variable {lib : Lib} {w w' : World} {D : Db} {r : UserRow} {a : PasswordAttrs}

/-- The site when a transaction over `D` has come to `w`. -/
abbrev Site.within (D : Db) (w : World) : Site := ⟨{ w with db := D }, some w.db⟩

/-- A creation runs by itself to its end. -/
abbrev SerialCreation (lib : Lib) (fin : Creation) (s : Site) (c : Creation) (w : World) : Prop :=
  Alone (welcomeStep lib) (.creation fin) s (.creation c) ⟨w, none⟩

theorem serial_attempt_ok {α : Type} {x : App α} {v : α} {next : α → Creation} {job : Option Nat} {c fin : Creation}
    {w₂ : World} (hc : creationStep lib (.within D w) c = some ((Site.within D w).attempt x next job))
    (hx : x.run w = (.ok v, w')) (h : SerialCreation lib fin (.within D w') (next v) w₂) :
    SerialCreation lib fin (.within D w) c w₂ := by
  refine .step ?_ h
  have hview : (Site.within D w).view = w := rfl
  simp only [welcomeStep, hc, Option.map_some, Site.attempt, hview, hx]
  rfl

theorem serial_attempt_error {α : Type} {x : App α} {e : Raise} {next : α → Creation} {job : Option Nat}
    {c : Creation}
    (hc : creationStep lib (.within D w) c = some ((Site.within D w).attempt x next job))
    (hx : x.run w = (.error e, w')) :
    SerialCreation lib (.rolledBack job) (.within D w) c { w' with db := D } := by
  refine .step ?_ (.done _)
  have hview : (Site.within D w).view = w := rfl
  simp only [welcomeStep, hc, Option.map_some, Site.attempt, hview, hx]
  rfl

theorem serial_saved : SerialCreation lib (.committed r) (.within D w) (.saved r a) w := .step rfl (.done _)

/-- The world after the end of a creation, `D` being committed before it. -/
def settled {α : Type} (D : Db) : Except Raise α × World → World
  | (.ok _, w) => w
  | (.error _, w) => { w with db := D }

def endOf {α : Type} (r : UserRow) (job : Option Nat) : Except Raise α × World → Creation
  | (.ok _, _) => .committed r
  | (.error _, _) => .rolledBack job

theorem serialCreation_linked (lib : Lib) (m : UserRow) : SerialCreation lib
    (endOf r (welcomeJob r a) ((updateStripeCustomer (written r m)).run w)) (.within D w) (.linked (written r m) r a)
    (settled D ((updateStripeCustomer (written r m)).run w)) := by
  rcases hx : (updateStripeCustomer (written r m)).run w with ⟨e | u, w'⟩
  · exact serial_attempt_error rfl hx
  · exact serial_attempt_ok rfl hx serial_saved

/-- The nested `update` of `create_stripe_customer`. -/
theorem serialCreation_created (lib : Lib) (c : String) : SerialCreation lib
    (endOf r (welcomeJob r a) ((update lib r (linkPatch c) a).run w)) (.within D w) (.created r a c)
    (settled D ((update lib r (linkPatch c) a).run w)) := by
  cases hv : validUser lib w.db.users (some r.id) (updated lib w.db.users r (linkPatch c)) a with
  | false =>
    rw [update_of_invalid hv]
    have hstep : creationStep lib (.within D w) (.created r a c) = some (.within D w, .saved r a) :=
      if_neg (by rw [show (Site.within D w).view = w from rfl, hv]; exact Bool.false_ne_true)
    exact .step (by simp only [welcomeStep, hstep]; rfl) serial_saved
  | true =>
    have hstep : creationStep lib (.within D w) (.created r a c) = some ((Site.within D w).attempt
        (writeUser r.id (writtenColumns r (updated lib w.db.users r (linkPatch c))))
        (fun _ => .linked (written r (updated lib w.db.users r (linkPatch c))) r a) (welcomeJob r a)) :=
      if_pos hv
    have hrole : (linkPatch c).role ≠ some none := by simp [linkPatch]
    rw [update_of_valid hv, if_neg hrole]
    cases ht : w.db.users.modify r.id (writtenColumns r (updated lib w.db.users r (linkPatch c))).apply with
    | none =>
      rw [Act.bind_of_error (Act.atomically_of_error (saveUpdate_of_none ht))]
      exact serial_attempt_error hstep (writeUser_of_none ht)
    | some t =>
      have hlinked := serialCreation_linked lib (w := w.setUsers t) (D := D) (r := r) (a := a)
        (updated lib w.db.users r (linkPatch c))
      have hsave : (saveUpdate r (updated lib w.db.users r (linkPatch c))).run w =
          (updateStripeCustomer (written r (updated lib w.db.users r (linkPatch c)))).run (w.setUsers t) :=
        Act.bind_of_ok (writeUser_of_some ht)
      have hresets := customerUpdate_stripeOnly (written r (updated lib w.db.users r (linkPatch c))).stripeCustomerId
        (written r (updated lib w.db.users r (linkPatch c))).email
        (written r (updated lib w.db.users r (linkPatch c))).username (w.setUsers t)
      rcases hx : (updateStripeCustomer (written r (updated lib w.db.users r (linkPatch c)))).run (w.setUsers t)
        with ⟨e | u, w'⟩ <;> rw [hx] at hlinked hsave
      · rw [Act.bind_of_error (Act.atomically_of_error hsave)]
        -- the nested transaction has nothing but rows to undo
        obtain ⟨st, sc, hw'⟩ := hresets
        rw [show customerUpdate _ _ _ = updateStripeCustomer _ from rfl, hx] at hw'
        dsimp only at hw'
        subst hw'
        exact serial_attempt_ok hstep (writeUser_of_some ht) hlinked
      · rw [Act.bind_of_ok (Act.atomically_of_ok hsave)]
        exact serial_attempt_ok hstep (writeUser_of_some ht) hlinked

theorem serialCreation_enqueued (lib : Lib) : SerialCreation lib
    (endOf r (welcomeJob r a) ((createStripeCustomer lib r a).run w)) (.within D w) (.enqueued r a)
    (settled D ((createStripeCustomer lib r a).run w)) := by
  unfold createStripeCustomer
  rcases hx : (customerCreate lib r.email r.username).run w with ⟨e | c, w'⟩
  · rw [Act.bind_of_error hx]
    exact serial_attempt_error rfl hx
  · rw [Act.bind_of_ok hx]
    have hcreated := serialCreation_created lib (w := w') (D := D) (r := r) (a := a) c
    rcases hu : (update lib r (linkPatch c) a).run w' with ⟨e | b, w₂⟩ <;> rw [hu] at hcreated
    · rw [Act.bind_of_error hu]
      exact serial_attempt_ok rfl hx hcreated
    · rw [Act.bind_of_ok hu]
      exact serial_attempt_ok rfl hx hcreated

theorem createStripeCustomer_resets (lib : Lib) (r : UserRow) (a : PasswordAttrs) (w : World) :
    ((createStripeCustomer lib r a).run w).2.resets = w.resets := by
  have hcreate : (Frame.same World.resets).Holds (customerCreate lib r.email r.username) w := by
    obtain ⟨st, sc, hframe⟩ := customerCreate_stripeOnly lib r.email r.username w
    show ((customerCreate lib r.email r.username).run w).2.resets = w.resets
    rw [hframe]
  refine hcreate.bind fun c w' _ => holds_ignore ?_
  show ((update lib r (linkPatch c) a).run w').2.resets = w'.resets
  rcases update_cases lib r (linkPatch c) a w' with ⟨-, h⟩ | ⟨-, st, sc, ⟨e, h⟩ | ⟨t, -, -, h⟩⟩ <;> rw [h]
  rfl

theorem insertUser_resets (lib : Lib) (m : UserRow) (a : PasswordAttrs) (w : World) :
    ((insertUser lib m a).run w).2.resets = w.resets := by
  unfold insertUser
  rw [Act.run_get_bind]
  split
  · rfl
  · rename_i t ht
    rw [Act.run_modify_bind]
    have hmail : (Frame.same World.resets).Holds (sendWelcomeEmail (insertedRow w m) a) (w.setUsers t) :=
      .ite (fun _ => .pure _ _) fun _ => rfl
    exact hmail.bind fun _ w' _ =>
      Frame.Holds.bind (createStripeCustomer_resets lib (insertedRow w m) a w') fun _ w'' _ => .pure _ w''

/-- A save that raises leaves the rest of the transaction's world. -/
theorem atomically_insertUser (lib : Lib) (m : UserRow) (a : PasswordAttrs) (w : World) :
    ((Act.atomically (insertUser lib m a)).run w).2 = settled w.db ((insertUser lib m a).run w) := by
  have hresets := insertUser_resets lib m a w
  rcases hx : (insertUser lib m a).run w with ⟨e | x, w'⟩ <;> rw [hx] at hresets
  · rw [Act.atomically_of_error hx]
    show ({ w' with db := w.db, resets := w.resets } : World) = { w' with db := w.db }
    rw [← hresets]
  · rw [Act.atomically_of_ok hx]
    rfl

theorem serialCreation_begun (lib : Lib) {src : Source} {m : UserRow} (hrec : src.record lib w.db.users = some m)
    (hrole : src.nullRole = false) : ∃ job, SerialCreation lib
      (endOf (insertedRow w m) job ((insertUser lib m src.attrs).run w)) (.within D w) (.begun src)
      (settled D ((insertUser lib m src.attrs).run w)) := by
  unfold insertUser
  rw [Act.run_get_bind]
  cases ht : w.db.users.insert (insertedRow w m) with
  | none =>
    have hins : (insertRecord lib src).run w = (.error .recordNotUnique, w) := by
      unfold insertRecord
      rw [Act.run_get_bind, hrec]
      simp only [hrole, ht]
      rfl
    exact ⟨none, serial_attempt_error rfl hins⟩
  | some t =>
    have hins : (insertRecord lib src).run w = (.ok (insertedRow w m), w.setUsers t) := by
      unfold insertRecord
      rw [Act.run_get_bind, hrec]
      simp only [hrole, ht]
      rfl
    obtain ⟨w₁, hmail⟩ : ∃ w₁, (sendWelcomeEmail (insertedRow w m) src.attrs).run (w.setUsers t) = (.ok (), w₁) := by
      unfold sendWelcomeEmail
      split
      · exact ⟨_, rfl⟩
      · exact ⟨_, rfl⟩
    refine ⟨welcomeJob (insertedRow w m) src.attrs, serial_attempt_ok rfl hins (serial_attempt_ok rfl hmail ?_)⟩
    have henqueued := serialCreation_enqueued lib (w := w₁) (D := D) (r := insertedRow w m) (a := src.attrs)
    rw [Act.run_modify_bind, Act.bind_of_ok hmail]
    rcases hc : (createStripeCustomer lib (insertedRow w m) src.attrs).run w₁ with ⟨e | u, w₂⟩ <;>
      rw [hc] at henqueued
    · rw [Act.bind_of_error hc]
      exact henqueued
    · rw [Act.bind_of_ok hc]
      exact henqueued

/-- A record that is refused before the `INSERT`. -/
theorem serial_refused {src : Source} (h : src.record lib w.db.users = none ∨ src.nullRole = true) :
    SerialCreation lib (.rolledBack none) (.within w.db w) (.begun src) w := by
  have hins : ∃ e, (insertRecord lib src).run w = (.error e, w) := by
    unfold insertRecord
    rw [Act.run_get_bind]
    cases hrec : src.record lib w.db.users with
    | none => exact ⟨_, rfl⟩
    | some m =>
      have hrole : src.nullRole = true := h.resolve_left (by rw [hrec]; exact Option.some_ne_none m)
      simp only [hrole]
      exact ⟨_, rfl⟩
  obtain ⟨e, hins⟩ := hins
  exact serial_attempt_error rfl hins

theorem creation_serial (lib : Lib) (w : World) (src : Source) :
    ∃ fin, SerialCreation lib fin ⟨w, none⟩ (.requested src) ((src.save lib).run w).2 := by
  have hbegin : ∀ {fin w'}, SerialCreation lib fin (.within w.db w) (.begun src) w' →
      SerialCreation lib fin ⟨w, none⟩ (.requested src) w' := fun h => .step rfl h
  have hsaved : ∀ m, src.record lib w.db.users = some m → src.nullRole = false →
      ∃ fin, SerialCreation lib fin ⟨w, none⟩ (.requested src)
        ((Act.atomically (insertUser lib m src.attrs)).run w).2 := by
    intro m hrec hrole
    obtain ⟨job, h⟩ := serialCreation_begun lib (D := w.db) hrec hrole
    exact ⟨_, by rw [atomically_insertUser]; exact hbegin h⟩
  cases src with
  | customer k =>
    obtain ⟨fin, h⟩ := hsaved (importNew lib w.db.users k) rfl rfl
    exact ⟨fin, by
      rw [show ((Source.save lib (.customer k)).run w).2 = _ from Act.bind_pure_snd _ _ w]
      exact h⟩
  | params p a =>
    have hrun : ((Source.save lib (.params p a)).run w).2 = ((create lib p a).run w).2 := Act.bind_pure_snd _ _ w
    rw [hrun]
    unfold create
    rw [Act.run_get_bind]
    dsimp only
    split
    · rename_i hv
      rw [Act.bind_pure_snd]
      by_cases hp : p.role = some none
      · rw [if_pos hp, Act.atomically_of_error rfl]
        exact ⟨_, hbegin (serial_refused (.inr (beq_iff_eq.2 hp)))⟩
      · rw [if_neg hp]
        exact hsaved _ (if_pos hv) (beq_eq_false_iff_ne.2 hp)
    · rename_i hv
      exact ⟨_, hbegin (serial_refused (.inl (if_neg hv)))⟩

end Serial

/-! ## What the steps of a transaction keep -/

def Creation.inTx : Creation → Bool
  | .begun _ | .inserted .. | .enqueued .. | .created .. | .linked .. | .saved .. => true
  | _ => false

def WelcomeThread.inTx : WelcomeThread → Bool
  | .creation c => c.inTx
  | .worker _ => false

/-- The row of the creation is in the table its transaction sees. -/
def Creation.Stored (users : Table UserRow) : Creation → Prop
  | .inserted r _ | .enqueued r _ | .created r _ _ => r ∈ users.rows ∧ (r.slug = none → r.username = none)
  | .linked _ r _ | .saved r _ => users.Has r.id
  | _ => True

theorem Creation.inTx_of_job {c : Creation} {u : Nat} (h : c.job = some u) : c.inTx = true := by
  cases c <;> first | rfl | cases h

theorem WelcomeThread.inTx_of_job {t : WelcomeThread} {u : Nat} (h : t.job = some u) : t.inTx = true := by
  cases t with
  | creation c => exact Creation.inTx_of_job h
  | worker p => cases h

structure WelcomeInv (s : Sys Site WelcomeThread) : Prop where
  ok : WelcomeOk s
  dequeued : ∀ u, .worker (.dequeued u) ∈ s.threads → s.shared.world.db.users.Has u
  single : s.threads.countP WelcomeThread.inTx ≤ 1
  stored : ∀ c, .creation c ∈ s.threads → c.inTx = true → ∃ db, s.shared.opened = some db ∧
    (∀ i, s.shared.world.db.users.Has i → db.users.Has i) ∧ c.Stored db.users
  jobs : ∀ u ∈ s.shared.world.jobs, s.shared.world.db.users.Has u ∨ ∃ t ∈ s.threads, t.job = some u

section Steps

variable {lib : Lib} {s : Sys Site WelcomeThread} {i : Nat}

/-- The open transaction sees all that is committed, and the row of its
creation. -/
theorem WelcomeInv.view {c : Creation} (h : WelcomeInv s) (hi : s.threads[i]? = some (.creation c))
    (hc : c.inTx = true) : s.shared.opened = some s.shared.view.db ∧
      (∀ j, s.shared.world.db.users.Has j → s.shared.view.db.users.Has j) ∧ c.Stored s.shared.view.db.users := by
  obtain ⟨db, hopen, hview, hst⟩ := h.stored c (List.mem_of_getElem? hi) hc
  have hdb : s.shared.view.db = db := by simp [Site.view, hopen]
  rw [hdb]
  exact ⟨hopen, hview, hst⟩

/-- A step of the open transaction from `c` to `c'`. -/
theorem WelcomeInv.tx {c c' : Creation} {x : Site} (h : WelcomeInv s) (hi : s.threads[i]? = some (.creation c))
    (hc : c.inTx = true) (hkept : ∀ u, s.shared.world.db.users.Has u → x.world.db.users.Has u)
    (hok : ∀ u, c' ≠ .rolledBack (some u))
    (hstored : c'.inTx = true → ∃ db, x.opened = some db ∧
      (∀ i, x.world.db.users.Has i → db.users.Has i) ∧ c'.Stored db.users)
    (hjobs : ∀ u ∈ x.world.jobs, c'.job = some u ∨
      u ∈ s.shared.world.jobs ∧ (c.job = some u → x.world.db.users.Has u)) :
    WelcomeInv ⟨x, s.threads.set i (.creation c')⟩ := by
  have hothers : ∀ {t}, t ∈ s.threads.set i (.creation c') → t = .creation c' ∨ t ∈ s.threads ∧ t.inTx = false :=
    fun ht => mem_set_of_single hi hc h.single ht
  have hold : ∀ {t}, t ≠ .creation c' → t ∈ s.threads.set i (.creation c') → t ∈ s.threads :=
    fun hne ht => ((hothers ht).resolve_left hne).1
  have hlen : i < s.threads.length := (List.getElem?_eq_some_iff.1 hi).1
  refine ⟨⟨fun u hu => ?_, fun u hu => ?_⟩, fun u hu => ?_, ?_, fun d hd hdtx => ?_, fun u hu => ?_⟩
  · exact h.ok.1 u (hold (by simp) hu)
  · exact h.ok.2 u (hold (fun he => hok u (WelcomeThread.creation.inj he).symm) hu)
  · exact hkept u (h.dequeued u (hold (by simp) hu))
  · have hcount := countP_threads hi (.creation c') WelcomeThread.inTx
    have hle : (WelcomeThread.inTx (.creation c')).toNat ≤ 1 := Bool.toNat_le _
    rw [show WelcomeThread.inTx (.creation c) = true from hc] at hcount
    have := h.single
    simp only [Bool.toNat_true] at hcount
    show (s.threads.set i (.creation c')).countP WelcomeThread.inTx ≤ 1
    omega
  · rcases hothers hd with he | ⟨-, hno⟩
    · cases he
      exact hstored hdtx
    · cases hdtx.symm.trans hno
  · rcases hjobs u hu with hj | ⟨hu, hj⟩
    · exact .inr ⟨_, List.mem_set hlen _, hj⟩
    · rcases h.jobs u hu with hhas | ⟨t, ht, htj⟩
      · exact .inl (hkept u hhas)
      · -- the creation that queued it is the open one
        have hsame : s.threads.set i (.creation c) = s.threads := by
          rw [← (List.getElem?_eq_some_iff.1 hi).2, List.set_getElem_self]
        rcases mem_set_of_single hi hc h.single (hsame.symm ▸ ht) with he | ⟨-, hno⟩
        · subst he
          exact .inl (hj htj)
        · cases (WelcomeThread.inTx_of_job htj).symm.trans hno

/-- A step that raises ends the transaction; one that does not leads on in
it. -/
theorem WelcomeInv.attempt {α : Type} {c c' : Creation} {x : Site} {y : App α} {next : α → Creation}
    {job : Option Nat} (h : WelcomeInv s) (hstep : s.shared.attempt y next job = (x, c'))
    (hi : s.threads[i]? = some (.creation c)) (hc : c.inTx = true)
    (hjobs : ∀ u ∈ (y.run s.shared.view).2.jobs, u ∈ s.shared.world.jobs)
    (herr : ∀ e, (y.run s.shared.view).1 = .error e → job = none ∧ c.job = none)
    (hok : ∀ v w, y.run s.shared.view = (.ok v, w) → (next v).inTx = true ∧ (next v).job = c.job ∧
      (∀ j, s.shared.view.db.users.Has j → w.db.users.Has j) ∧ (next v).Stored w.db.users) :
    WelcomeInv ⟨x, s.threads.set i (.creation c')⟩ := by
  unfold Site.attempt at hstep
  rcases hy : y.run s.shared.view with ⟨e | v, w⟩ <;> rw [hy] at hjobs hstep <;> cases hstep
  · obtain ⟨rfl, hnone⟩ := herr e (by rw [hy])
    refine h.tx hi hc (fun u hu => hu) (by simp) (fun hin => by cases hin) fun u hu => .inr ⟨hjobs u hu, fun hj => ?_⟩
    rw [hnone] at hj
    cases hj
  · obtain ⟨hin, hjob, hkept, hst⟩ := hok v w hy
    obtain ⟨-, hview, -⟩ := h.view hi hc
    refine h.tx hi hc (fun u hu => hu) (fun u he => ?_) (fun _ => ⟨w.db, rfl, fun j hj => ?_, hst⟩) fun u hu => ?_
    · rw [he] at hin
      cases hin
    · exact hkept j (hview j hj)
    · by_cases hj : c.job = some u
      · exact .inl (hjob.trans hj)
      · exact .inr ⟨hjobs u hu, fun he => absurd he hj⟩

/-- A named record has a slug. -/
theorem record_slug {src : Source} {users : Table UserRow} {m : UserRow} (h : src.record lib users = some m) :
    m.slug = none → m.username = none := by
  cases src with
  | params p a =>
    simp only [Source.record, Option.ite_none_right_eq_some, Option.some.injEq] at h
    rw [← h.2]
    exact withSlug_slug lib users _
  | customer k =>
    cases h
    exact importNew_slug lib users k

theorem insertRecord_ok {src : Source} {w w' : World} {r : UserRow}
    (h : (insertRecord lib src).run w = (.ok r, w')) :
    (∀ j, w.db.users.Has j → w'.db.users.Has j) ∧ r ∈ w'.db.users.rows ∧ (r.slug = none → r.username = none) := by
  unfold insertRecord at h
  rw [Act.run_get_bind] at h
  split at h
  · cases h
  · rename_i m hm
    split at h
    · cases h
    · split at h
      · cases h
      · rename_i t ht
        cases h
        exact ⟨fun j hj => hj.insert ht, (Table.mem_insert ht).2 (.inr rfl), record_slug (m := m) hm⟩

theorem insertRecord_jobs (src : Source) (w : World) : ((insertRecord lib src).run w).2.jobs = w.jobs := by
  unfold insertRecord
  rw [Act.run_get_bind]
  split
  · rfl
  · split
    · rfl
    · split <;> rfl

theorem calm_iff {w : World} : calm w = true ↔ ∀ f, w.script.head? ≠ some (some f) := by
  unfold calm
  rcases w.script with _ | ⟨_ | f, rest⟩ <;> simp

theorem customerCreate_of_calm {w : World} (hw : calm w = true) (email name : Option String) (e : Raise) :
    ((customerCreate lib email name).run w).1 ≠ .error e := by
  unfold customerCreate
  rcases hx : external.run w with ⟨e' | ⟨⟩, w₁⟩
  · obtain ⟨f, hf⟩ := external_error_iff.1 ⟨e', by rw [hx]⟩
    exact absurd hf (calm_iff.1 hw f)
  · rw [Act.bind_of_ok hx]
    intro h
    cases h

/-- A creation without a job may fail. -/
theorem welcomeJob_of_skip {r : UserRow} {a : PasswordAttrs} (h : a.skipPasswordValidation = true) :
    welcomeJob r a = none := if_pos h

/-- A transaction begins when none is open. -/
theorem WelcomeInv.begin {src : Source} (h : WelcomeInv s) (hi : s.threads[i]? = some (.creation (.requested src)))
    (hopen : s.shared.opened = none) :
    WelcomeInv ⟨⟨s.shared.world, some s.shared.world.db⟩, s.threads.set i (.creation (.begun src))⟩ := by
  have hnone : ∀ t ∈ s.threads, t.inTx = false := by
    intro t ht
    cases t with
    | worker p => rfl
    | creation c =>
      by_contra hc
      obtain ⟨db, hdb, -⟩ := h.stored c ht (Bool.not_eq_false _ ▸ hc)
      rw [hopen] at hdb
      cases hdb
  have hold : ∀ {t}, t ∈ s.threads.set i (.creation (.begun src)) → t = .creation (.begun src) ∨ t ∈ s.threads :=
    fun ht => (List.mem_or_eq_of_mem_set ht).symm
  refine ⟨⟨fun u hu => ?_, fun u hu => ?_⟩, fun u hu => ?_, ?_, fun c hc hin => ?_, fun u hu => ?_⟩
  · exact h.ok.1 u ((hold hu).resolve_left (by simp))
  · exact h.ok.2 u ((hold hu).resolve_left (by simp))
  · exact h.dequeued u ((hold hu).resolve_left (by simp))
  · have hcount := countP_threads hi (.creation (.begun src)) WelcomeThread.inTx
    have hzero : s.threads.countP WelcomeThread.inTx = 0 :=
      List.countP_eq_zero.2 fun t ht => by simp [hnone t ht]
    simp only [WelcomeThread.inTx, Creation.inTx, Bool.toNat_false, Bool.toNat_true] at hcount
    show (s.threads.set i (.creation (.begun src))).countP WelcomeThread.inTx ≤ 1
    omega
  · rcases hold hc with he | hc
    · cases he
      exact ⟨_, rfl, fun _ hj => hj, trivial⟩
    · cases hin.symm.trans (hnone _ hc)
  · rcases h.jobs u hu with hhas | ⟨t, ht, hj⟩
    · exact .inl hhas
    · cases (WelcomeThread.inTx_of_job hj).symm.trans (hnone t ht)

theorem sendWelcomeEmail_run (r : UserRow) (a : PasswordAttrs) (w : World) :
    (sendWelcomeEmail r a).run w = (.ok (), { w with jobs := w.jobs ++ (welcomeJob r a).toList }) := by
  unfold sendWelcomeEmail welcomeJob
  split
  · rw [Option.toList_none, List.append_nil]
    rfl
  · rfl

/-- The job is queued while the transaction is open. -/
theorem WelcomeInv.enqueue {r : UserRow} {a : PasswordAttrs} {c' : Creation} {x : Site} (h : WelcomeInv s)
    (hi : s.threads[i]? = some (.creation (.inserted r a)))
    (hstep : s.shared.attempt (sendWelcomeEmail r a) (fun _ => .enqueued r a) none = (x, c')) :
    WelcomeInv ⟨x, s.threads.set i (.creation c')⟩ := by
  obtain ⟨-, hview, hst⟩ := h.view hi rfl
  unfold Site.attempt at hstep
  rw [sendWelcomeEmail_run] at hstep
  cases hstep
  refine h.tx hi rfl (fun u hu => hu) (by simp) (fun _ => ⟨_, rfl, hview, hst⟩) fun u hu => ?_
  rcases List.mem_append.1 hu with hu | hu
  · exact .inr ⟨hu, fun hj => by cases hj⟩
  · exact .inl (Option.mem_toList.1 hu)

/-- `Stripe::Customer.create`, which may raise when no job is queued. -/
theorem WelcomeInv.customerCreate {r : UserRow} {a : PasswordAttrs} {c' : Creation} {x : Site} (h : WelcomeInv s)
    (hi : s.threads[i]? = some (.creation (.enqueued r a)))
    (hcalm : a.skipPasswordValidation = true ∨ calm s.shared.view = true)
    (hstep : s.shared.attempt (customerCreate lib r.email r.username) (.created r a) (welcomeJob r a) = (x, c')) :
    WelcomeInv ⟨x, s.threads.set i (.creation c')⟩ := by
  obtain ⟨-, -, hst⟩ := h.view hi rfl
  obtain ⟨st, sc, hframe⟩ := customerCreate_stripeOnly lib r.email r.username s.shared.view
  refine h.attempt hstep hi rfl (fun u hu => ?_) (fun e he => ?_) fun c w hw => ?_
  · rw [hframe] at hu
    exact hu
  · rcases hcalm with hskip | hcalm
    · exact ⟨welcomeJob_of_skip hskip, welcomeJob_of_skip hskip⟩
    · exact absurd he (customerCreate_of_calm hcalm _ _ e)
  · rw [hw] at hframe
    cases hframe
    exact ⟨rfl, rfl, fun j hj => hj, hst⟩

/-- The link of the stored row runs into no index. -/
theorem WelcomeInv.link {r : UserRow} {a : PasswordAttrs} {c : String} {c' : Creation} {x : Site}
    (h : WelcomeInv s) (hi : s.threads[i]? = some (.creation (.created r a c)))
    (hstep : creationStep lib s.shared (.created r a c) = some (x, c')) :
    WelcomeInv ⟨x, s.threads.set i (.creation c')⟩ := by
  obtain ⟨hopen, hview, hr, hslug⟩ := h.view hi rfl
  have hhas : s.shared.view.db.users.Has r.id := ⟨r, hr, rfl⟩
  simp only [creationStep] at hstep
  split at hstep
  · obtain ⟨t, ht⟩ := modify_link lib hr c hslug
    have hwrite := writeUser_of_some (w := s.shared.view) ht
    refine h.attempt (Option.some.inj hstep) hi rfl (fun u hu => ?_) (fun e he => ?_) fun _ w hw => ?_
    · rw [hwrite] at hu
      exact hu
    · rw [hwrite] at he
      cases he
    · rw [hwrite] at hw
      cases hw
      exact ⟨rfl, rfl, fun j hj => hj.modify ht, hhas.modify ht⟩
  · cases hstep
    refine h.tx hi rfl (fun u hu => hu) (by simp) (fun _ => ⟨_, hopen, hview, hhas⟩) fun u hu => ?_
    by_cases hj : welcomeJob r a = some u
    · exact .inl hj
    · exact .inr ⟨hu, fun he => absurd he hj⟩

/-- `Stripe::Customer.update`, which may raise when no job is queued. -/
theorem WelcomeInv.push {y r : UserRow} {a : PasswordAttrs} {c' : Creation} {x : Site} (h : WelcomeInv s)
    (hi : s.threads[i]? = some (.creation (.linked y r a)))
    (hcalm : a.skipPasswordValidation = true ∨ calm s.shared.view = true ∧
      (y.stripeCustomerId.bind (customer? s.shared.view)).isSome = true)
    (hstep : s.shared.attempt (updateStripeCustomer y) (fun _ => .saved r a) (welcomeJob r a) = (x, c')) :
    WelcomeInv ⟨x, s.threads.set i (.creation c')⟩ := by
  obtain ⟨-, -, hst⟩ := h.view hi rfl
  unfold updateStripeCustomer at hstep
  obtain ⟨st, sc, hframe⟩ := customerUpdate_stripeOnly y.stripeCustomerId y.email y.username s.shared.view
  refine h.attempt hstep hi rfl (fun u hu => ?_) (fun e he => ?_) fun v w hw => ?_
  · rw [hframe] at hu
    exact hu
  · rcases hcalm with hskip | ⟨hcalm, hknown⟩
    · exact ⟨welcomeJob_of_skip hskip, welcomeJob_of_skip hskip⟩
    · obtain ⟨w', hw'⟩ := customerUpdate_ok_iff (e := y.email) (n := y.username) |>.2 ⟨calm_iff.1 hcalm, hknown⟩
      rw [hw'] at he
      cases he
  · rw [hw] at hframe
    cases hframe
    exact ⟨rfl, rfl, fun j hj => hj, hst⟩

/-- With the commit the job has its user. -/
theorem WelcomeInv.commit {r : UserRow} {a : PasswordAttrs} (h : WelcomeInv s)
    (hi : s.threads[i]? = some (.creation (.saved r a))) :
    WelcomeInv ⟨s.shared.commit, s.threads.set i (.creation (.committed r))⟩ := by
  obtain ⟨-, hview, hst⟩ := h.view hi rfl
  refine h.tx hi rfl hview (by simp) (fun hin => by cases hin) fun u hu => .inr ⟨hu, fun hj => ?_⟩
  have hid : r.id = u := by
    simp only [Creation.job, welcomeJob, Option.ite_none_left_eq_some, Option.some.injEq] at hj
    exact hj.2
  exact hid ▸ hst

theorem WelcomeInv.creation {c c' : Creation} {x : Site} (h : WelcomeInv s)
    (hi : s.threads[i]? = some (.creation c)) (hg : orderly s i = true)
    (hstep : creationStep lib s.shared c = some (x, c')) :
    WelcomeInv ⟨x, s.threads.set i (.creation c')⟩ := by
  unfold orderly at hg
  rw [hi] at hg
  cases c with
  | requested src =>
    simp only [creationStep] at hstep
    split at hstep
    · cases hstep
    · rename_i hopen
      cases hstep
      exact h.begin hi (by simpa using hopen)
  | begun src =>
    refine h.attempt (Option.some.inj hstep) hi rfl (fun u hu => ?_) (fun _ _ => ⟨rfl, rfl⟩) fun r w hr => ?_
    · rw [insertRecord_jobs] at hu
      exact hu
    · obtain ⟨hkept, hstored⟩ := insertRecord_ok hr
      exact ⟨rfl, rfl, hkept, hstored⟩
  | inserted r a => exact h.enqueue hi (Option.some.inj hstep)
  | enqueued r a => exact h.customerCreate hi (Bool.or_eq_true_iff.1 hg) (Option.some.inj hstep)
  | created r a c => exact h.link hi hstep
  | linked y r a =>
    exact h.push hi ((Bool.or_eq_true_iff.1 hg).imp_right Bool.and_eq_true_iff.1) (Option.some.inj hstep)
  | saved r a =>
    cases hstep
    exact h.commit hi
  | committed r => cases hstep
  | rolledBack job => cases hstep

/-- A worker leaves the database and the open transaction alone. -/
theorem WelcomeInv.worker_move {p p' : Worker} {x : Site} (h : WelcomeInv s) (hi : s.threads[i]? = some (.worker p))
    (hdb : x.world.db = s.shared.world.db) (hopen : x.opened = s.shared.opened)
    (hjobs : ∀ u ∈ x.world.jobs, u ∈ s.shared.world.jobs) (hok : ∀ u, p' ≠ .notFound u)
    (hdeq : ∀ u, p' = .dequeued u → s.shared.world.db.users.Has u) :
    WelcomeInv ⟨x, s.threads.set i (.worker p')⟩ := by
  have hold : ∀ {t}, t ∈ s.threads.set i (.worker p') → t = .worker p' ∨ t ∈ s.threads :=
    fun ht => (List.mem_or_eq_of_mem_set ht).symm
  refine ⟨⟨fun u hu => ?_, fun u hu => ?_⟩, fun u hu => ?_, ?_, fun c hc hin => ?_, fun u hu => ?_⟩
  · rcases hold hu with he | hu
    · exact hok u (WelcomeThread.worker.inj he).symm
    · exact h.ok.1 u hu
  · exact h.ok.2 u ((hold hu).resolve_left (by simp))
  · show x.world.db.users.Has u
    rw [hdb]
    rcases hold hu with he | hu
    · exact hdeq u (WelcomeThread.worker.inj he).symm
    · exact h.dequeued u hu
  · have hcount := countP_threads hi (.worker p') WelcomeThread.inTx
    simp only [WelcomeThread.inTx, Bool.toNat_false, Nat.add_zero] at hcount
    exact hcount ▸ h.single
  · obtain ⟨db, hdb', hview, hst⟩ := h.stored c ((hold hc).resolve_left (by simp)) hin
    exact ⟨db, hopen.trans hdb', fun j hj => hview j (hdb ▸ hj), hst⟩
  · rcases h.jobs u (hjobs u hu) with hhas | ⟨t, ht, hj⟩
    · exact .inl (hdb.symm ▸ hhas)
    · -- the thread that moved had queued nothing
      obtain ⟨j, htj⟩ := List.mem_iff_getElem?.1 ht
      have hne : j ≠ i := by
        rintro rfl
        rw [hi] at htj
        cases htj
        cases hj
      exact .inr ⟨t, List.mem_of_getElem? ((List.getElem?_set_ne (Ne.symm hne)).trans htj), hj⟩

/-- A step of a worker, which reads and takes jobs. -/
theorem WelcomeInv.worker {p p' : Worker} {x : Site} (h : WelcomeInv s) (hi : s.threads[i]? = some (.worker p))
    (hg : orderly s i = true) (hstep : workerStep s.shared p = some (x, p')) :
    WelcomeInv ⟨x, s.threads.set i (.worker p')⟩ := by
  cases p with
  | idle =>
    simp only [workerStep] at hstep
    split at hstep
    · cases hstep
    · rename_i u rest hjobs
      cases hstep
      refine h.worker_move hi rfl rfl (fun v hv => hjobs ▸ List.mem_cons_of_mem u hv) (by simp) fun v hv => ?_
      cases hv
      -- the creation that queued the job is not open any more
      unfold orderly at hg
      rw [hi, hjobs] at hg
      have hended : ∀ t ∈ s.threads, t.job ≠ some u := by
        intro t ht
        exact bne_iff_ne.1 (List.all_eq_true.1 hg t ht)
      rcases h.jobs u (hjobs ▸ List.mem_cons_self) with hhas | ⟨t, ht, hj⟩
      · exact hhas
      · exact absurd hj (hended t ht)
  | dequeued u =>
    obtain ⟨r, hr, hid⟩ := h.dequeued u (List.mem_of_getElem? hi)
    simp only [workerStep, Table.find_eq_some_iff.2 ⟨hr, hid⟩] at hstep
    cases hstep
    exact h.worker_move hi rfl rfl (fun v hv => hv) (by simp) (by simp)
  | found r =>
    have hcall := external_snd s.shared.world
    simp only [workerStep] at hstep
    rcases hx : external.run s.shared.world with ⟨e | v, w⟩ <;> rw [hx] at hcall hstep <;> cases hstep <;>
      dsimp only at hcall
    · exact h.worker_move hi (by rw [hcall]) rfl (fun v hv => by rw [hcall] at hv; exact hv) (by simp) (by simp)
    · exact h.worker_move hi (by rw [hcall]) rfl (fun v hv => by rw [hcall] at hv; exact hv) (by simp) (by simp)
  | sent r => cases hstep
  | undelivered r => cases hstep
  | notFound u => cases hstep

theorem WelcomeInv.step {s' : Sys Site WelcomeThread} (h : WelcomeInv s) (hg : orderly s i = true)
    (hs : fire (welcomeStep lib) s i = some s') : WelcomeInv s' := by
  obtain ⟨t, x, t', hi, hstep, rfl⟩ := fire_cases hs
  cases t with
  | creation c =>
    obtain ⟨⟨x', c'⟩, hc, he⟩ := Option.map_eq_some_iff.1 hstep
    cases he
    exact h.creation hi hg hc
  | worker p =>
    obtain ⟨⟨x', p'⟩, hp, he⟩ := Option.map_eq_some_iff.1 hstep
    cases he
    exact h.worker hi hg hp

end Steps

theorem WelcomeStart.inv {s : Sys Site WelcomeThread} (h : WelcomeStart s) : WelcomeInv s := by
  have hno : ∀ {t}, t ∈ s.threads → t.inTx = false := by
    intro t ht
    rcases h.threads t ht with ⟨src, rfl⟩ | rfl <;> rfl
  refine ⟨⟨fun u hu => ?_, fun u hu => ?_⟩, fun u hu => ?_, ?_, fun c hc hin => ?_, fun u hu => .inl (h.jobs u hu)⟩
  · rcases h.threads _ hu with ⟨src, he⟩ | he <;> cases he
  · rcases h.threads _ hu with ⟨src, he⟩ | he <;> cases he
  · rcases h.threads _ hu with ⟨src, he⟩ | he <;> cases he
  · rw [List.countP_eq_zero.2 fun t ht => by simp [hno ht]]
    exact Nat.zero_le 1
  · cases hin.symm.trans (hno hc)

theorem welcome_jobs (lib : Lib) (s₀ s : Sys Site WelcomeThread) (ls : List Nat) (h₀ : WelcomeStart s₀)
    (h : ((welcomeSystem lib).guard fun s i => orderly s i = true).Run s₀ ls s) : WelcomeOk s :=
  have hstep : ∀ a i b, WelcomeInv a → ((welcomeSystem lib).guard fun s i => orderly s i = true).step a i b →
      WelcomeInv b := fun _ _ _ hI hs => hI.step hs.2 hs.1
  (h.keeps hstep h₀.inv).ok

/-! ## One creation and one worker -/

def newcomer : Source :=
  .params
    { username := some (some "bob"), email := some (some "bob@example.com"), encryptedPassword := some "password" }
    { password := some "password", passwordConfirmation := some "password" }

/-- No users yet; `script` says which call to Stripe raises. -/
def welcomeSite (script : List (Option Fault)) : Sys Site WelcomeThread :=
  ⟨⟨{ script := script }, none⟩, [.creation (.requested newcomer), .worker .idle]⟩

theorem welcomeSite_start (script : List (Option Fault)) : WelcomeStart (welcomeSite script) := by
  refine ⟨rfl, fun u hu => (List.not_mem_nil hu).elim, fun t ht => ?_⟩
  rcases List.mem_cons.1 ht with rfl | ht
  · exact .inl ⟨newcomer, rfl⟩
  · exact .inr (List.mem_singleton.1 ht)

/-- The user who was sent a mail. -/
def WelcomeThread.mailed : WelcomeThread → Option Nat
  | .worker (.sent r) => some r.id
  | _ => none

/-- The user a job did not find. -/
def WelcomeThread.missed : WelcomeThread → Option Nat
  | .worker (.notFound u) => some u
  | _ => none

/-- The user whose creation was rolled back with a job queued. -/
def WelcomeThread.orphaned : WelcomeThread → Option Nat
  | .creation (.rolledBack job) => job
  | _ => none

theorem WelcomeOk.missed {s : Sys Site WelcomeThread} (h : WelcomeOk s) :
    s.threads.filterMap WelcomeThread.missed = [] := by
  refine List.filterMap_eq_nil_iff.2 fun t ht => ?_
  unfold WelcomeThread.missed
  split
  · exact absurd ht (h.1 _)
  · rfl

theorem WelcomeOk.orphaned {s : Sys Site WelcomeThread} (h : WelcomeOk s) :
    s.threads.filterMap WelcomeThread.orphaned = [] := by
  refine List.filterMap_eq_nil_iff.2 fun t ht => ?_
  unfold WelcomeThread.orphaned
  split
  · rename_i job
    cases job with
    | none => rfl
    | some u => exact absurd ht (h.2 u)
  · rfl

/-- The worker comes after the commit. -/
theorem welcome_after_commit : ∃ s,
    ((welcomeSystem plainLib).guard fun s i => orderly s i = true).Run (welcomeSite [])
      [0, 0, 0, 0, 0, 0, 0, 1, 1, 1] s ∧
    s.threads.filterMap WelcomeThread.mailed = [1] ∧ WelcomeOk s := by
  have hmailed : ([0, 0, 0, 0, 0, 0, 0, 1, 1, 1].foldlM
      (fun s i => if orderly s i then fire (welcomeStep plainLib) s i else none) (welcomeSite [])).map
      (fun s => s.threads.filterMap WelcomeThread.mailed) = some [1] := by decide
  obtain ⟨s, hs, hmailed⟩ := Option.map_eq_some_iff.1 hmailed
  have hrun : ((welcomeSystem plainLib).guard fun s i => orderly s i = true).Run (welcomeSite []) _ s :=
    LTS.run_guard_of_foldlM hs
  exact ⟨s, hrun, hmailed, welcome_jobs plainLib _ s _ (welcomeSite_start []) hrun⟩

/-- The worker comes right after the job was queued and finds no user; or
`Stripe::Customer.create` raises, the creation is rolled back, and the job
stays. -/
theorem welcome_jobs_lost :
    (∃ s, (welcomeSystem plainLib).Run (welcomeSite []) [0, 0, 0, 1, 1] s ∧
      s.threads.filterMap WelcomeThread.missed = [1] ∧ ¬ WelcomeOk s) ∧
    ∃ s, (welcomeSystem plainLib).Run (welcomeSite [some .other]) [0, 0, 0, 0] s ∧
      s.threads.filterMap WelcomeThread.orphaned = [1] ∧ s.shared.world.jobs = [1] ∧
      s.shared.world.db.users.rows = [] ∧ ¬ WelcomeOk s := by
  have hearly : ([0, 0, 0, 1, 1].foldlM (fire (welcomeStep plainLib)) (welcomeSite [])).map
      (fun s => s.threads.filterMap WelcomeThread.missed) = some [1] := by decide
  have hraise : ([0, 0, 0, 0].foldlM (fire (welcomeStep plainLib)) (welcomeSite [some .other])).map
      (fun s => (s.threads.filterMap WelcomeThread.orphaned, s.shared.world.jobs, s.shared.world.db.users.rows)) =
      some ([1], [1], []) := by decide
  obtain ⟨s, hs, hmissed⟩ := Option.map_eq_some_iff.1 hearly
  obtain ⟨s', hs', hend⟩ := Option.map_eq_some_iff.1 hraise
  simp only [Prod.mk.injEq] at hend
  obtain ⟨horphaned, hjobs, hrows⟩ := hend
  refine ⟨⟨s, LTS.ofFn_run_iff.2 hs, hmissed, fun hok => ?_⟩,
    ⟨s', LTS.ofFn_run_iff.2 hs', horphaned, hjobs, hrows, fun hok => ?_⟩⟩
  · rw [hok.missed] at hmissed
    cases hmissed
  · rw [hok.orphaned] at horphaned
    cases horphaned

end Insta.Concurrency
