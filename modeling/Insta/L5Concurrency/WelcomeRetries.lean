import Insta.L5Concurrency.WelcomeJobs

/-!
# How often a user is welcomed

The creations and workers of `WelcomeJobs`, and Sidekiq around them. Sidekiq
is not part of the program and keeps no promise here: between any two steps
it may put a failed job back, or not; free a worker and forget its job; lose
a waiting job, or let an admin delete it; queue once more a job it was given;
change the order (`SidekiqMove`). `queued` and `mailed` record every job
handed over and every mail sent, `repeated` the jobs queued once more without
a failed run; no step reads `mailed` and `repeated`. A delivery that raises
has sent nothing.

A job that is put back can be one of a creation that was rolled back. Its id
is the next one SQLite gives out, so the job then finds another user than
the one it was queued for.

* `creationMove`: what a step of a creation does to the numbering of users
  and to its job.
* `welcomed_once`: in every interleaving, whatever calls fail and whatever
  Sidekiq does, nobody is mailed more than once, plus once for each creation
  that was rolled back under their id after it had queued its job, plus once
  for each job of theirs that Sidekiq queued once more; and a job waits or is
  in hand only for a user who is there, for one whose creation is open, or
  for one whose creation was rolled back.
* `welcomed_twice`: a mail for a creation that was rolled back.
-/
namespace Insta.Concurrency

open Insta.Core Insta.Store Insta.Store.App Insta.Model Insta.Service Insta.Web

/-! ## The system -/

/-- The site, all jobs ever handed to Sidekiq, all mails ever sent, and the
jobs that were queued once more. -/
structure Mailroom where
  site : Site
  queued : List Nat
  mailed : List Nat
  repeated : List Nat

/-- Sidekiq's queue. -/
def Mailroom.setJobs (m : Mailroom) (jobs : List Nat) : Mailroom :=
  { m with site := { m.site with world := { m.site.world with jobs := jobs } } }

/-- What the next step of a creation hands to Sidekiq. -/
def Creation.hands : Creation → List Nat
  | .inserted r a => (welcomeJob r a).toList
  | _ => []

def Worker.mails : Worker → List Nat
  | .sent r => [r.id]
  | _ => []

/-- The job of a run that raised. -/
def Worker.failed : Worker → Option Nat
  | .undelivered r => some r.id
  | .notFound u => some u
  | _ => none

/-- The step of `welcomeStep`, recorded. -/
def mailStep (lib : Lib) (m : Mailroom) : WelcomeThread → Option (Mailroom × WelcomeThread)
  | .creation c =>
    (creationStep lib m.site c).map fun p => ({ m with site := p.1, queued := m.queued ++ c.hands }, .creation p.2)
  | .worker p =>
    (workerStep m.site p).map fun q => ({ m with site := q.1, mailed := m.mailed ++ q.2.mails }, .worker q.2)

/-- What Sidekiq does of its own accord. -/
inductive SidekiqMove
  /-- The failed run of thread `i` is to be tried again. -/
  | retry (i : Nat)
  /-- Worker `i` is free: its run has ended, was given up, or was killed. -/
  | release (i : Nat)
  /-- The `k`-th waiting job is gone. -/
  | delete (k : Nat)
  /-- A job that was handed over is queued once more. -/
  | again (u : Nat)
  | reorder (jobs : List Nat)

def sidekiqStep (s : Sys Mailroom WelcomeThread) : SidekiqMove → Option (Sys Mailroom WelcomeThread)
  | .retry i =>
    match s.threads[i]? with
    | some (.worker p) => p.failed.map fun u =>
      ⟨s.shared.setJobs (s.shared.site.world.jobs ++ [u]), s.threads.set i (.worker .idle)⟩
    | _ => none
  | .release i =>
    match s.threads[i]? with
    | some (.worker _) => some ⟨s.shared, s.threads.set i (.worker .idle)⟩
    | _ => none
  | .delete k => some ⟨s.shared.setJobs (s.shared.site.world.jobs.eraseIdx k), s.threads⟩
  | .again u =>
    if u ∈ s.shared.queued then
      some ⟨{ s.shared.setJobs (s.shared.site.world.jobs ++ [u]) with repeated := s.shared.repeated ++ [u] },
        s.threads⟩
    else none
  | .reorder jobs => if jobs.Perm s.shared.site.world.jobs then some ⟨s.shared.setJobs jobs, s.threads⟩ else none

inductive MailLabel
  | step (i : Nat)
  | sidekiq (m : SidekiqMove)

def mailNext (lib : Lib) (s : Sys Mailroom WelcomeThread) : MailLabel → Option (Sys Mailroom WelcomeThread)
  | .step i => fire (mailStep lib) s i
  | .sidekiq m => sidekiqStep s m

/-- No transaction is open, the queue has no job twice and none for a user who
is not there, and nothing is recorded before it. -/
structure MailStart (s : Sys Mailroom WelcomeThread) : Prop where
  closed : s.shared.site.opened = none
  nodup : s.shared.site.world.jobs.Nodup
  jobs : ∀ u ∈ s.shared.site.world.jobs, s.shared.site.world.db.users.Has u
  queued : s.shared.queued = s.shared.site.world.jobs
  mailed : s.shared.mailed = []
  repeated : s.shared.repeated = []
  threads : ∀ t ∈ s.threads, (∃ src, t = .creation (.requested src)) ∨ t = .worker .idle

def mailSystem (lib : Lib) : LTS (Sys Mailroom WelcomeThread) MailLabel := LTS.ofFn MailStart (mailNext lib)

/-- A worker has the job in hand, or failed with it. -/
def WelcomeThread.handles (u : Nat) : WelcomeThread → Bool
  | .worker (.dequeued v) | .worker (.notFound v) => v == u
  | .worker (.found r) | .worker (.undelivered r) => r.id == u
  | _ => false

/-- A creation was rolled back that had queued the job. -/
def WelcomeThread.dropped (u : Nat) : WelcomeThread → Bool
  | .creation (.rolledBack (some v)) => v == u
  | _ => false

/-- An open creation has queued the job. -/
def WelcomeThread.promises (u : Nat) (t : WelcomeThread) : Bool := t.job == some u

/-! ## A step of a worker -/

theorem count_toList (o : Option Nat) (u : Nat) : o.toList.count u = (o == some u).toNat := by
  cases o with
  | none => rfl
  | some v =>
    rw [Option.toList_some, List.count_singleton, Option.some_beq_some]
    cases v == u <;> rfl

theorem count_one (v u : Nat) : [v].count u = (v == u).toNat := count_toList (some v) u

/-- A step of a worker moves one job, and leaves the database and the open
transaction alone. -/
theorem workerStep_moves {s x : Site} {p p' : Worker} (h : workerStep s p = some (x, p')) :
    x.world.db = s.world.db ∧ x.opened = s.opened ∧
    ∀ u, x.world.jobs.count u + (WelcomeThread.handles u (.worker p')).toNat + p'.mails.count u =
      s.world.jobs.count u + (WelcomeThread.handles u (.worker p)).toNat := by
  cases p with
  | idle =>
    simp only [workerStep] at h
    split at h
    · cases h
    · rename_i v rest hjobs
      cases h
      refine ⟨rfl, rfl, fun u => ?_⟩
      rw [hjobs, ← List.singleton_append, List.count_append, count_one]
      simp [Worker.mails, WelcomeThread.handles, Nat.add_comm]
  | dequeued v =>
    simp only [workerStep] at h
    split at h
    · cases h
      exact ⟨rfl, rfl, fun u => by simp [Worker.mails, WelcomeThread.handles]⟩
    · rename_i r hr
      cases h
      have hid : r.id = v := (Table.mem_of_find hr).2
      exact ⟨rfl, rfl, fun u => by simp [Worker.mails, WelcomeThread.handles, hid]⟩
  | found r =>
    -- the job stays in hand when the delivery raises, and is a mail otherwise
    have hcall := external_snd s.world
    simp only [workerStep] at h
    rcases hx : external.run s.world with ⟨e | v, w⟩ <;> rw [hx] at hcall h <;> cases h <;> dsimp only at hcall <;>
      rw [hcall]
    · exact ⟨rfl, rfl, fun u => by simp [Worker.mails, WelcomeThread.handles]⟩
    · exact ⟨rfl, rfl, fun u => by simp [Worker.mails, WelcomeThread.handles, count_one]⟩
  | sent r => cases h
  | undelivered r => cases h
  | notFound v => cases h

theorem handles_of_failed {p : Worker} {v : Nat} (h : p.failed = some v) (u : Nat) :
    WelcomeThread.handles u (.worker p) = (v == u) := by
  cases p <;> cases h <;> rfl

/-! ## A step of a creation -/

/-- The row an open creation has inserted. -/
def Creation.row : Creation → Option UserRow
  | .inserted r _ | .enqueued r _ | .created r _ _ | .linked _ r _ | .saved r _ => some r
  | _ => none

theorem Creation.row_of_job {c : Creation} {u : Nat} (h : c.job = some u) : ∃ r, c.row = some r ∧ r.id = u := by
  have hid : ∀ {r a}, welcomeJob r a = some u → r.id = u := by
    intro r a hj
    simp only [welcomeJob, Option.ite_none_left_eq_some, Option.some.injEq] at hj
    exact hj.2
  cases c with
  | enqueued r a => exact ⟨r, rfl, hid h⟩
  | created r a k => exact ⟨r, rfl, hid h⟩
  | linked x r a => exact ⟨r, rfl, hid h⟩
  | saved r a => exact ⟨r, rfl, hid h⟩
  | requested src => cases h
  | begun src => cases h
  | inserted r a => cases h
  | committed r => cases h
  | rolledBack job => cases h

/-- What a step of a creation does to the numbering of the users and to its
job. -/
inductive CreationMove (s : Site) (c : Creation) : Site → Creation → Prop
  | began {src : Source} (h : c = .requested src) (hopen : s.opened = none) :
    CreationMove s c ⟨s.world, some s.world.db⟩ (.begun src)
  | went {x : Site} {c' : Creation} {db : Db} (hc : c.inTx = true) (hc' : c'.inTx = true)
      (hdb : x.world.db = s.world.db) (hopen : x.opened = some db)
      (hnext : s.view.db.users.nextId ≤ db.users.nextId) (hkept : ∀ u, s.view.db.users.Has u → db.users.Has u)
      (hrow : c'.row = c.row ∨ ∃ r, c'.row = some r ∧ r.id = s.view.db.users.nextId ∧ db.users.Has r.id)
      (hjob : c'.job.toList = c.job.toList ++ c.hands) : CreationMove s c x c'
  | failed {x : Site} (hc : c.inTx = true) (hdb : x.world.db = s.world.db) (hands : c.hands = []) :
    CreationMove s c x (.rolledBack c.job)
  | committed {r : UserRow} {a : PasswordAttrs} (h : c = .saved r a) : CreationMove s c s.commit (.committed r)

section Moves

variable {lib : Lib} {s x : Site} {c c' : Creation}

/-- A step inside the transaction that hands nothing over. -/
theorem CreationMove.attempt {α : Type} {y : App α} {next : α → Creation} (hc : c.inTx = true) (hands : c.hands = [])
    (hok : ∀ v w, y.run s.view = (.ok v, w) → (next v).inTx = true ∧ (next v).job = c.job ∧
      s.view.db.users.nextId ≤ w.db.users.nextId ∧ (∀ u, s.view.db.users.Has u → w.db.users.Has u) ∧
      ((next v).row = c.row ∨
        ∃ r, (next v).row = some r ∧ r.id = s.view.db.users.nextId ∧ w.db.users.Has r.id))
    (h : s.attempt y next c.job = (x, c')) : CreationMove s c x c' := by
  unfold Site.attempt at h
  rcases hy : y.run s.view with ⟨e | v, w⟩ <;> rw [hy] at h <;> cases h
  · exact .failed hc rfl hands
  · obtain ⟨hin, hjob, hnext, hkept, hrow⟩ := hok v w hy
    exact .went hc hin rfl rfl hnext hkept hrow (by rw [hjob, hands, List.append_nil])

theorem insertRecord_nextId {src : Source} {w w' : World} {r : UserRow}
    (h : (insertRecord lib src).run w = (.ok r, w')) :
    r.id = w.db.users.nextId ∧ w'.db.users.nextId = w.db.users.nextId + 1 := by
  unfold insertRecord at h
  rw [Act.run_get_bind] at h
  split at h
  · cases h
  · split at h
    · cases h
    · split at h
      · cases h
      · rename_i t ht
        cases h
        exact ⟨rfl, (Table.insert_eq_some_iff.1 ht).2.2⟩

theorem writeUser_nextId (i : Nat) (d : UserPatch) (w : World) :
    ((writeUser i d).run w).2.db.users.nextId = w.db.users.nextId := by
  unfold writeUser
  rw [Act.run_get_bind]
  split
  · rfl
  · rename_i t ht
    exact Table.nextId_modify ht

theorem writeUser_has (i : Nat) (d : UserPatch) {w : World} {u : Nat} (h : w.db.users.Has u) :
    ((writeUser i d).run w).2.db.users.Has u := by
  unfold writeUser
  rw [Act.run_get_bind]
  split
  · exact h
  · rename_i t ht
    exact h.modify ht

theorem writeUser_jobs (i : Nat) (d : UserPatch) (w : World) : ((writeUser i d).run w).2.jobs = w.jobs := by
  unfold writeUser
  rw [Act.run_get_bind]
  split <;> rfl

theorem creationMove (hopen : c.inTx = true → s.opened = some s.view.db)
    (h : creationStep lib s c = some (x, c')) : CreationMove s c x c' := by
  cases c with
  | requested src =>
    simp only [creationStep] at h
    split at h
    · cases h
    · rename_i hnone
      cases h
      exact .began rfl (by simpa using hnone)
  | begun src =>
    refine .attempt rfl rfl (fun r w hr => ?_) (Option.some.inj h)
    obtain ⟨hid, hnext⟩ := insertRecord_nextId hr
    obtain ⟨hkept, hmem, -⟩ := insertRecord_ok hr
    exact ⟨rfl, rfl, by omega, hkept, .inr ⟨r, rfl, hid, .of_mem hmem⟩⟩
  | inserted r a =>
    have hstep := Option.some.inj h
    unfold Site.attempt at hstep
    rw [sendWelcomeEmail_run] at hstep
    cases hstep
    exact .went rfl rfl rfl rfl le_rfl (fun _ hu => hu) (.inl rfl) rfl
  | enqueued r a =>
    obtain ⟨st, sc, hframe⟩ := customerCreate_stripeOnly lib r.email r.username s.view
    refine .attempt rfl rfl (fun k w hw => ?_) (Option.some.inj h)
    rw [hw] at hframe
    cases hframe
    exact ⟨rfl, rfl, le_rfl, fun _ hu => hu, .inl rfl⟩
  | created r a k =>
    simp only [creationStep] at h
    split at h
    · refine .attempt rfl rfl (fun v w hw => ?_) (Option.some.inj h)
      have hnext := writeUser_nextId r.id (writtenColumns r (updated lib s.view.db.users r (linkPatch k))) s.view
      have hkept := fun u => writeUser_has (u := u) r.id
        (writtenColumns r (updated lib s.view.db.users r (linkPatch k))) (w := s.view)
      rw [hw] at hnext hkept
      exact ⟨rfl, rfl, hnext.ge, hkept, .inl rfl⟩
    · cases h
      exact .went rfl rfl rfl (hopen rfl) le_rfl (fun _ hu => hu) (.inl rfl) (List.append_nil _).symm
  | linked y r a =>
    obtain ⟨st, sc, hframe⟩ := customerUpdate_stripeOnly y.stripeCustomerId y.email y.username s.view
    refine .attempt rfl rfl (fun v w hw => ?_) (Option.some.inj h)
    unfold updateStripeCustomer at hw
    rw [hw] at hframe
    cases hframe
    exact ⟨rfl, rfl, le_rfl, fun _ hu => hu, .inl rfl⟩
  | saved r a =>
    cases h
    exact .committed rfl
  | committed r => cases h
  | rolledBack job => cases h

/-- The queue grows by what the step hands over. -/
theorem creationStep_jobs (h : creationStep lib s c = some (x, c')) :
    x.world.jobs = s.world.jobs ++ c.hands := by
  have hattempt : ∀ {α : Type} {y : App α} {next : α → Creation} {job : Option Nat},
      s.attempt y next job = (x, c') → x.world.jobs = (y.run s.view).2.jobs := by
    intro α y next job hs
    unfold Site.attempt at hs
    rcases hy : y.run s.view with ⟨e | v, w⟩ <;> rw [hy] at hs <;> cases hs <;> rfl
  have hstripe : ∀ {α : Type} {y : App α} {next : α → Creation} {job : Option Nat}, stripeOnly.Holds y s.view →
      s.attempt y next job = (x, c') → x.world.jobs = s.world.jobs := by
    rintro α y next job ⟨st, sc, hframe⟩ hs
    rw [hattempt hs, hframe]
    rfl
  cases c with
  | requested src =>
    simp only [creationStep] at h
    split at h <;> cases h
    exact (List.append_nil _).symm
  | begun src =>
    rw [hattempt (Option.some.inj h), insertRecord_jobs]
    exact (List.append_nil _).symm
  | inserted r a =>
    rw [hattempt (Option.some.inj h), sendWelcomeEmail_run]
    rfl
  | enqueued r a =>
    rw [hstripe (customerCreate_stripeOnly lib r.email r.username s.view) (Option.some.inj h)]
    exact (List.append_nil _).symm
  | created r a k =>
    simp only [creationStep] at h
    split at h
    · rw [hattempt (Option.some.inj h), writeUser_jobs]
      exact (List.append_nil _).symm
    · cases h
      exact (List.append_nil _).symm
  | linked y r a =>
    rw [hstripe (customerUpdate_stripeOnly y.stripeCustomerId y.email y.username s.view) (Option.some.inj h)]
    exact (List.append_nil _).symm
  | saved r a =>
    cases h
    exact (List.append_nil _).symm
  | committed r => cases h
  | rolledBack job => cases h

end Moves

/-! ## Every interleaving -/

/-- The open transaction of `c` sees `new` where `old` is committed: no user
is missing, and the row of `c` has an id that was not given out. -/
structure Ahead (old new : Db) (c : Creation) : Prop where
  next : old.users.nextId ≤ new.users.nextId
  kept : ∀ u, old.users.Has u → new.users.Has u
  row : ∀ r, c.row = some r → old.users.nextId ≤ r.id ∧ new.users.Has r.id

/-- The id was given out between `old` and `new`. -/
def given (old new : Db) (u : Nat) : Bool := decide (old.users.nextId ≤ u) && (new.users.find u).isSome

theorem given_iff {old new : Db} {u : Nat} : given old new u = true ↔ old.users.nextId ≤ u ∧ new.users.Has u := by
  rw [given, Bool.and_eq_true, decide_eq_true_iff, Table.has_iff_find]

structure MailInv (s : Sys Mailroom WelcomeThread) : Prop where
  account : ∀ u, s.shared.site.world.jobs.count u + s.threads.countP (WelcomeThread.handles u) +
    s.shared.mailed.count u ≤ s.shared.queued.count u + s.shared.repeated.count u
  single : s.threads.countP WelcomeThread.inTx ≤ 1
  opened : ∀ c, .creation c ∈ s.threads → c.inTx = true → ∃ db, s.shared.site.opened = some db ∧
    Ahead s.shared.site.world.db db c
  handed : ∀ u, s.shared.queued.count u ≤ s.threads.countP (WelcomeThread.dropped u) +
    (if u < s.shared.site.world.db.users.nextId then 1 else 0) + s.threads.countP (WelcomeThread.promises u)
  known : ∀ u ∈ s.shared.queued, s.shared.site.world.db.users.Has u ∨
    0 < s.threads.countP (WelcomeThread.dropped u) + s.threads.countP (WelcomeThread.promises u)
  repeated : ∀ u ∈ s.shared.repeated, u ∈ s.shared.queued

section Steps

variable {lib : Lib} {s : Sys Mailroom WelcomeThread} {i : Nat}

/-- A step that leaves the creations and the database alone is accounted for
by the jobs it moves. -/
theorem MailInv.of_jobs {s' : Sys Mailroom WelcomeThread} (h : MailInv s)
    (hdb : s'.shared.site.world.db = s.shared.site.world.db) (hopen : s'.shared.site.opened = s.shared.site.opened)
    (hqueued : s'.shared.queued = s.shared.queued)
    (hcreations : ∀ c, .creation c ∈ s'.threads → .creation c ∈ s.threads)
    (hcount : ∀ q : WelcomeThread → Bool, (∀ p, q (.worker p) = false) → s'.threads.countP q = s.threads.countP q)
    (hrepeated : ∀ u ∈ s'.shared.repeated, u ∈ s.shared.queued)
    (haccount : ∀ u, s'.shared.site.world.jobs.count u + s'.threads.countP (WelcomeThread.handles u) +
      s'.shared.mailed.count u ≤ s.shared.queued.count u + s'.shared.repeated.count u) : MailInv s' := by
  refine ⟨fun u => ?_, ?_, fun c hc hin => ?_, fun u => ?_, fun u hu => ?_, fun u hu => ?_⟩
  · rw [hqueued]
    exact haccount u
  · rw [hcount WelcomeThread.inTx fun _ => rfl]
    exact h.single
  · rw [hdb, hopen]
    exact h.opened c (hcreations c hc) hin
  · rw [hdb, hqueued, hcount (WelcomeThread.dropped u) fun _ => rfl, hcount (WelcomeThread.promises u) fun _ => rfl]
    exact h.handed u
  · rw [hqueued] at hu
    rw [hdb, hcount (WelcomeThread.dropped u) fun _ => rfl, hcount (WelcomeThread.promises u) fun _ => rfl]
    exact h.known u hu
  · rw [hqueued]
    exact hrepeated u hu

/-- The same when worker `i` goes from `p` to `p'`. -/
theorem MailInv.of_worker {p p' : Worker} {m : Mailroom} (h : MailInv s) (hi : s.threads[i]? = some (.worker p))
    (hdb : m.site.world.db = s.shared.site.world.db) (hopen : m.site.opened = s.shared.site.opened)
    (hqueued : m.queued = s.shared.queued) (hrepeated : m.repeated = s.shared.repeated)
    (hmoved : ∀ u, m.site.world.jobs.count u + (WelcomeThread.handles u (.worker p')).toNat + m.mailed.count u ≤
      s.shared.site.world.jobs.count u + (WelcomeThread.handles u (.worker p)).toNat + s.shared.mailed.count u) :
    MailInv ⟨m, s.threads.set i (.worker p')⟩ := by
  refine h.of_jobs hdb hopen hqueued (fun c hc => ?_) (fun q hq => ?_) (fun u hu => ?_) fun u => ?_
  · exact (List.mem_or_eq_of_mem_set hc).resolve_right (by simp)
  · have hset := countP_threads hi (.worker p') q
    rw [hq, hq] at hset
    exact hset
  · exact h.repeated u (hrepeated ▸ hu)
  · have hset := countP_threads hi (.worker p') (WelcomeThread.handles u)
    have hold := h.account u
    have hnew := hmoved u
    dsimp only
    rw [hrepeated]
    omega

theorem MailInv.worker {p p' : Worker} {x : Site} (h : MailInv s) (hi : s.threads[i]? = some (.worker p))
    (hstep : workerStep s.shared.site p = some (x, p')) :
    MailInv ⟨{ s.shared with site := x, mailed := s.shared.mailed ++ p'.mails }, s.threads.set i (.worker p')⟩ := by
  obtain ⟨hdb, hopen, hcount⟩ := workerStep_moves hstep
  refine h.of_worker hi hdb hopen rfl rfl fun u => ?_
  have hmoved := hcount u
  dsimp only
  rw [List.count_append]
  omega

/-- Sidekiq adds a job only for a failed run, or records it. -/
theorem MailInv.sidekiq {s' : Sys Mailroom WelcomeThread} {m : SidekiqMove} (h : MailInv s)
    (hs : sidekiqStep s m = some s') : MailInv s' := by
  cases m with
  | retry i =>
    simp only [sidekiqStep] at hs
    split at hs
    · rename_i p hi
      obtain ⟨v, hv, rfl⟩ := Option.map_eq_some_iff.1 hs
      refine h.of_worker hi rfl rfl rfl rfl fun u => ?_
      rw [handles_of_failed hv u, ← count_one]
      simp [Mailroom.setJobs, WelcomeThread.handles, List.count_append]
    · cases hs
  | release i =>
    simp only [sidekiqStep] at hs
    split at hs
    · rename_i p hi
      cases hs
      refine h.of_worker hi rfl rfl rfl rfl fun u => ?_
      simp only [WelcomeThread.handles, Bool.toNat_false]
      omega
    · cases hs
  | delete k =>
    cases hs
    refine h.of_jobs rfl rfl rfl (fun _ hc => hc) (fun _ _ => rfl) h.repeated fun u => ?_
    have hfewer := (List.eraseIdx_sublist s.shared.site.world.jobs k).count_le u
    have hold := h.account u
    simp only [Mailroom.setJobs]
    omega
  | again v =>
    simp only [sidekiqStep, Option.ite_none_right_eq_some, Option.some.injEq] at hs
    obtain ⟨hv, rfl⟩ := hs
    refine h.of_jobs rfl rfl rfl (fun _ hc => hc) (fun _ _ => rfl) (fun u hu => ?_) fun u => ?_
    · rcases List.mem_append.1 hu with hu | hu
      · exact h.repeated u hu
      · rw [List.mem_singleton.1 hu]
        exact hv
    · have hold := h.account u
      simp only [Mailroom.setJobs, List.count_append]
      omega
  | reorder jobs =>
    simp only [sidekiqStep, Option.ite_none_right_eq_some, Option.some.injEq] at hs
    obtain ⟨hperm, rfl⟩ := hs
    refine h.of_jobs rfl rfl rfl (fun _ hc => hc) (fun _ _ => rfl) h.repeated fun u => ?_
    have hold := h.account u
    simp only [Mailroom.setJobs, hperm.count_eq u]
    exact hold

/-- The open transaction, as it sees the users. -/
theorem MailInv.view {c : Creation} (h : MailInv s) (hi : s.threads[i]? = some (.creation c))
    (hc : c.inTx = true) : s.shared.site.opened = some s.shared.site.view.db ∧
      Ahead s.shared.site.world.db s.shared.site.view.db c := by
  obtain ⟨db, hopen, hahead⟩ := h.opened c (List.mem_of_getElem? hi) hc
  have hdb : s.shared.site.view.db = db := by simp [Site.view, hopen]
  rw [hdb]
  exact ⟨hopen, hahead⟩

/-- Where no transaction is open, no creation is in one. -/
theorem MailInv.closed (h : MailInv s) (hnone : s.shared.site.opened = none) : ∀ t ∈ s.threads, t.inTx = false := by
  intro t ht
  cases t with
  | worker p => rfl
  | creation c =>
    by_contra hc
    obtain ⟨db, hdb, -⟩ := h.opened c ht (Bool.not_eq_false _ ▸ hc)
    rw [hnone] at hdb
    cases hdb

/-- After a step of the creation whose transaction is open, no other one has
one. -/
theorem MailInv.alone {c c' d : Creation} (h : MailInv s) (hi : s.threads[i]? = some (.creation c))
    (hc : c.inTx = true) (hd : .creation d ∈ s.threads.set i (.creation c')) (hin : d.inTx = true) : d = c' := by
  rcases mem_set_of_single hi hc h.single hd with he | ⟨-, hno⟩
  · exact WelcomeThread.creation.inj he
  · cases hin.symm.trans hno

/-- What the counts have to do when a creation steps from `c` to `c'`. -/
theorem MailInv.moved {c c' : Creation} {x : Site} (h : MailInv s) (hi : s.threads[i]? = some (.creation c))
    (hstep : creationStep lib s.shared.site c = some (x, c'))
    (hsingle : (s.threads.set i (.creation c')).countP WelcomeThread.inTx ≤ 1)
    (hopened : ∀ d, .creation d ∈ s.threads.set i (.creation c') → d.inTx = true → ∃ db, x.opened = some db ∧
      Ahead x.world.db db d)
    (hnext : s.shared.site.world.db.users.nextId ≤ x.world.db.users.nextId)
    (hkept : ∀ u, s.shared.site.world.db.users.Has u → x.world.db.users.Has u)
    (hhanded : ∀ u, c.hands.count u + (c.job == some u).toNat ≤
      (WelcomeThread.dropped u (.creation c')).toNat + (c'.job == some u).toNat +
      (given s.shared.site.world.db x.world.db u).toNat) :
    MailInv ⟨{ s.shared with site := x, queued := s.shared.queued ++ c.hands }, s.threads.set i (.creation c')⟩ := by
  have hlive : ∀ u, WelcomeThread.dropped u (.creation c) = false := by
    intro u
    cases c with
    | rolledBack job => cases hstep
    | _ => rfl
  -- how many creations are behind the jobs of `u`, before and after
  have hbehind : ∀ u, s.threads.countP (WelcomeThread.dropped u) + s.threads.countP (WelcomeThread.promises u) +
      c.hands.count u ≤ (s.threads.set i (.creation c')).countP (WelcomeThread.dropped u) +
      (s.threads.set i (.creation c')).countP (WelcomeThread.promises u) +
      (given s.shared.site.world.db x.world.db u).toNat := by
    intro u
    have hdropped := countP_threads hi (.creation c') (WelcomeThread.dropped u)
    have hpromised := countP_threads hi (.creation c') (WelcomeThread.promises u)
    have hnew := hhanded u
    rw [hlive u, Bool.toNat_false] at hdropped
    simp only [WelcomeThread.promises, WelcomeThread.job] at hpromised
    omega
  refine ⟨fun u => ?_, hsingle, hopened, fun u => ?_, fun u hu => ?_, fun u hu => ?_⟩
  · have hthreads := countP_threads hi (.creation c') (WelcomeThread.handles u)
    have hold := h.account u
    simp only [creationStep_jobs hstep, List.count_append]
    simp only [WelcomeThread.handles, Bool.toNat_false] at hthreads
    omega
  · have hold := h.handed u
    have hnew := hbehind u
    simp only [List.count_append]
    cases hg : given s.shared.site.world.db x.world.db u with
    | false =>
      rw [hg, Bool.toNat_false] at hnew
      split at hold <;> split <;> omega
    | true =>
      obtain ⟨hfree, r, hr, hid⟩ := given_iff.1 hg
      have hbelow := x.world.db.users.below r hr
      rw [hg, Bool.toNat_true] at hnew
      rw [if_neg (by omega)] at hold
      rw [if_pos (by omega)]
      omega
  · have hnew := hbehind u
    by_cases hhas : x.world.db.users.Has u
    · exact .inl hhas
    · rw [Bool.eq_false_iff.2 fun hg => hhas (given_iff.1 hg).2, Bool.toNat_false] at hnew
      rcases List.mem_append.1 hu with hu | hu
      · rcases h.known u hu with hold | hold
        · exact absurd (hkept u hold) hhas
        · exact .inr (by dsimp only; omega)
      · have hpos := List.count_pos_iff.2 hu
        exact .inr (by dsimp only; omega)
  · exact List.mem_append_left _ (h.repeated u hu)

theorem MailInv.creation {c c' : Creation} {x : Site} (h : MailInv s)
    (hi : s.threads[i]? = some (.creation c)) (hstep : creationStep lib s.shared.site c = some (x, c')) :
    MailInv ⟨{ s.shared with site := x, queued := s.shared.queued ++ c.hands }, s.threads.set i (.creation c')⟩ := by
  have hone := countP_threads hi (.creation c') WelcomeThread.inTx
  have hsingle := h.single
  cases creationMove (fun hc => (h.view hi hc).1) hstep with
  | @began src hreq hnone =>
    subst hreq
    have hclosed := h.closed hnone
    have hzero : s.threads.countP WelcomeThread.inTx = 0 := List.countP_eq_zero.2 fun t ht => by simp [hclosed t ht]
    refine h.moved hi hstep ?_ (fun d hd hin => ?_) le_rfl (fun _ hu => hu)
      fun u => by simp [Creation.hands, Creation.job]
    · simp only [WelcomeThread.inTx, Creation.inTx, Bool.toNat_false, Bool.toNat_true] at hone ⊢
      omega
    · rcases List.mem_or_eq_of_mem_set hd with hd | he
      · cases hin.symm.trans (hclosed _ hd)
      · cases he
        exact ⟨_, rfl, le_rfl, fun _ hu => hu, fun r hr => by cases hr⟩
  | @went _ _ db hc hc' hdb hopen hview hkept hrow hjob =>
    obtain ⟨-, hahead⟩ := h.view hi hc
    refine h.moved hi hstep ?_ (fun d hd hin => ?_) (by rw [hdb]) (fun u hu => hdb ▸ hu) fun u => ?_
    · simp only [WelcomeThread.inTx, hc, hc'] at hone ⊢
      omega
    · rw [h.alone hi hc hd hin, hdb]
      refine ⟨db, hopen, hahead.next.trans hview, fun u hu => hkept u (hahead.kept u hu), fun r hr => ?_⟩
      rcases hrow with hsame | ⟨r', hr', hid, hhas⟩
      · obtain ⟨hlow, hold⟩ := hahead.row r (hsame ▸ hr)
        exact ⟨hlow, hkept r.id hold⟩
      · cases hr.symm.trans hr'
        exact ⟨hahead.next.trans hid.ge, hhas⟩
    · have hcount := congrArg (List.count u) hjob
      rw [List.count_append, count_toList, count_toList] at hcount
      omega
  | failed hc hdb hands =>
    refine h.moved hi hstep ?_ (fun d hd hin => ?_) (by rw [hdb]) (fun u hu => hdb ▸ hu) fun u => ?_
    · simp only [WelcomeThread.inTx, Creation.inTx, Bool.toNat_false] at hone ⊢
      omega
    · rw [h.alone hi hc hd hin] at hin
      cases hin
    · rw [hands]
      cases c.job with
      | none => simp
      | some v => simp [WelcomeThread.dropped, Creation.job]
  | @committed r a hsaved =>
    subst hsaved
    obtain ⟨-, hahead⟩ := h.view hi rfl
    refine h.moved hi hstep ?_ (fun d hd hin => ?_) hahead.next hahead.kept fun u => ?_
    · simp only [WelcomeThread.inTx, Creation.inTx, Bool.toNat_false, Bool.toNat_true] at hone ⊢
      omega
    · rw [h.alone hi rfl hd hin] at hin
      cases hin
    · -- the user of the job is now there
      by_cases hj : (Creation.saved r a).job = some u
      · obtain ⟨r', hr', hid⟩ := Creation.row_of_job hj
        have hgiven : given s.shared.site.world.db s.shared.site.commit.world.db u = true :=
          given_iff.2 (hid ▸ hahead.row r' hr')
        rw [hj, hgiven]
        simp [Creation.hands]
      · rw [beq_eq_false_iff_ne.2 hj]
        simp [Creation.hands]

theorem MailInv.step {s' : Sys Mailroom WelcomeThread} {l : MailLabel} (h : MailInv s)
    (hs : mailNext lib s l = some s') : MailInv s' := by
  cases l with
  | sidekiq m => exact h.sidekiq hs
  | step i =>
    obtain ⟨t, x, t', hi, hstep, rfl⟩ := fire_cases hs
    cases t with
    | creation c =>
      obtain ⟨⟨x', c'⟩, hc, he⟩ := Option.map_eq_some_iff.1 hstep
      cases he
      exact h.creation hi hc
    | worker p =>
      obtain ⟨⟨x', p'⟩, hp, he⟩ := Option.map_eq_some_iff.1 hstep
      cases he
      exact h.worker hi hp

end Steps

theorem MailStart.inv {s : Sys Mailroom WelcomeThread} (h : MailStart s) : MailInv s := by
  have hquiet : ∀ (p : WelcomeThread → Bool), (∀ src, p (.creation (.requested src)) = false) →
      p (.worker .idle) = false → s.threads.countP p = 0 := by
    intro p hreq hidle
    refine List.countP_eq_zero.2 fun t ht => ?_
    rcases h.threads t ht with ⟨src, rfl⟩ | rfl
    · simp [hreq]
    · simp [hidle]
  refine ⟨fun u => ?_, ?_, fun c hc hin => ?_, fun u => ?_, fun u hu => .inl (h.jobs u (h.queued ▸ hu)), fun u hu => ?_⟩
  · rw [hquiet _ (fun _ => rfl) rfl, h.mailed, h.queued]
    exact Nat.le_add_right _ _
  · rw [hquiet _ (fun _ => rfl) rfl]
    exact Nat.zero_le 1
  · rcases h.threads _ hc with ⟨src, he⟩ | he <;> cases he
    cases hin
  · rw [h.queued]
    by_cases hu : u ∈ s.shared.site.world.jobs
    · obtain ⟨r, hr, hid⟩ := h.jobs u hu
      have hbelow := s.shared.site.world.db.users.below r hr
      rw [List.count_eq_one_of_mem h.nodup hu, if_pos (by omega)]
      omega
    · rw [List.count_eq_zero_of_not_mem hu]
      exact Nat.zero_le _
  · rw [h.repeated] at hu
    cases hu

/-- An id an open creation has queued a job for is not yet given out. -/
theorem MailInv.handed_le {s : Sys Mailroom WelcomeThread} (h : MailInv s) (u : Nat) :
    s.shared.queued.count u ≤ s.threads.countP (WelcomeThread.dropped u) + 1 := by
  have hhanded := h.handed u
  have hle : s.threads.countP (WelcomeThread.promises u) ≤ s.threads.countP WelcomeThread.inTx :=
    List.countP_mono_left fun t _ ht => WelcomeThread.inTx_of_job (beq_iff_eq.1 ht)
  have hsingle := h.single
  by_cases hpos : 0 < s.threads.countP (WelcomeThread.promises u)
  · obtain ⟨t, ht, hp⟩ := List.countP_pos_iff.1 hpos
    have hj : t.job = some u := beq_iff_eq.1 hp
    cases t with
    | worker p => cases hj
    | creation c =>
      obtain ⟨db, -, hahead⟩ := h.opened c ht (Creation.inTx_of_job hj)
      obtain ⟨r, hr, hid⟩ := Creation.row_of_job hj
      have hlow := (hahead.row r hr).1
      rw [if_neg (by omega)] at hhanded
      omega
  · split at hhanded <;> omega

/-- A job that waits or is in hand has its user, or a creation behind it. -/
theorem MailInv.job_known {s : Sys Mailroom WelcomeThread} (h : MailInv s) {u : Nat}
    (hu : u ∈ s.shared.site.world.jobs ∨ ∃ t ∈ s.threads, t.handles u = true) :
    s.shared.site.world.db.users.Has u ∨
      ∃ t ∈ s.threads, t.job = some u ∨ t = .creation (.rolledBack (some u)) := by
  have hpos : 0 < s.shared.site.world.jobs.count u + s.threads.countP (WelcomeThread.handles u) := by
    rcases hu with hu | ⟨t, ht, hh⟩
    · exact Nat.add_pos_left (List.count_pos_iff.2 hu) _
    · exact Nat.add_pos_right _ (List.countP_pos_iff.2 ⟨t, ht, hh⟩)
  have hqueued : u ∈ s.shared.queued := by
    have haccount := h.account u
    by_contra hnone
    have hzero := List.count_eq_zero_of_not_mem hnone
    have hnever := List.count_eq_zero_of_not_mem (mt (h.repeated u) hnone)
    omega
  rcases h.known u hqueued with hhas | hbehind
  · exact .inl hhas
  · right
    rcases Nat.add_pos_iff_pos_or_pos.1 hbehind with hd | hp
    · obtain ⟨t, ht, hd⟩ := List.countP_pos_iff.1 hd
      refine ⟨t, ht, .inr ?_⟩
      unfold WelcomeThread.dropped at hd
      split at hd
      · rw [beq_iff_eq.1 hd]
      · cases hd
    · obtain ⟨t, ht, hp⟩ := List.countP_pos_iff.1 hp
      exact ⟨t, ht, .inl (beq_iff_eq.1 hp)⟩

theorem welcomed_once (lib : Lib) (s₀ s : Sys Mailroom WelcomeThread) (ls : List MailLabel) (h₀ : MailStart s₀)
    (h : (mailSystem lib).Run s₀ ls s) (u : Nat) :
    s.shared.mailed.count u ≤ 1 + s.threads.countP (WelcomeThread.dropped u) + s.shared.repeated.count u ∧
    (u ∈ s.shared.site.world.jobs ∨ (∃ t ∈ s.threads, t.handles u = true) →
      s.shared.site.world.db.users.Has u ∨
      ∃ t ∈ s.threads, t.job = some u ∨ t = .creation (.rolledBack (some u))) := by
  have hinv : MailInv s := h.keeps (fun _ _ _ hI hs => hI.step hs) h₀.inv
  have haccount := hinv.account u
  have hhanded := hinv.handed_le u
  exact ⟨by omega, hinv.job_known⟩

/-- `latecomer` signs up after `newcomer`'s creation has failed. -/
def latecomer : Source :=
  .params
    { username := some (some "carol"), email := some (some "carol@example.com"),
      encryptedPassword := some "password" }
    { password := some "password", passwordConfirmation := some "password" }

/-- The first call to Stripe raises. -/
def mailroom : Sys Mailroom WelcomeThread :=
  ⟨⟨⟨{ script := [some .other] }, none⟩, [], [], []⟩,
    [.creation (.requested newcomer), .creation (.requested latecomer), .worker .idle, .worker .idle]⟩

theorem mailroom_start : MailStart mailroom := by
  refine ⟨rfl, List.nodup_nil, fun u hu => (List.not_mem_nil hu).elim, rfl, rfl, rfl, fun t ht => ?_⟩
  simp only [mailroom, List.mem_cons, List.not_mem_nil, or_false] at ht
  rcases ht with rfl | rfl | rfl | rfl
  · exact .inl ⟨newcomer, rfl⟩
  · exact .inl ⟨latecomer, rfl⟩
  · exact .inr rfl
  · exact .inr rfl

/-- The first user's creation is rolled back, a worker finds nobody, and
Sidekiq tries again once the second user has the id. -/
def triedAgain : List MailLabel :=
  [0, 0, 0, 0, 2, 2].map .step ++ .sidekiq (.retry 2) ::
    [1, 1, 1, 1, 1, 1, 1, 2, 2, 2, 3, 3, 3].map .step

/-- The second user gets both jobs' mails. -/
theorem welcomed_twice : ∃ s, (mailSystem plainLib).Run mailroom triedAgain s ∧
    s.shared.mailed = [1, 1] ∧ s.shared.queued = [1, 1] ∧ s.shared.repeated = [] ∧
    s.shared.mailed.count 1 ≤ 1 + s.threads.countP (WelcomeThread.dropped 1) + s.shared.repeated.count 1 := by
  have hlogs : (triedAgain.foldlM (mailNext plainLib) mailroom).map
      (fun s => (s.shared.mailed, s.shared.queued, s.shared.repeated)) = some ([1, 1], [1, 1], []) := by decide
  obtain ⟨s, hs, hlogs⟩ := Option.map_eq_some_iff.1 hlogs
  simp only [Prod.mk.injEq] at hlogs
  have hrun : (mailSystem plainLib).Run mailroom triedAgain s := LTS.ofFn_run_iff.2 hs
  exact ⟨s, hrun, hlogs.1, hlogs.2.1, hlogs.2.2, (welcomed_once plainLib mailroom s _ mailroom_start hrun 1).1⟩

end Insta.Concurrency
