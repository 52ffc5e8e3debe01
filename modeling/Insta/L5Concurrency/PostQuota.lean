import Insta.Core.Threads
import Insta.L4App.System

/-!
# The post quota when requests overlap

`Ability` counts the user's posts in a filter; the insert comes later, in a
transaction of its own, without a lock or a second look. Puma runs requests
in several threads and workers, so other requests of the same user may come
in between.

Threads are that user's `posts#create` and `posts#destroy` requests, with the
filters and the write as separate atomic steps (`create_serial`,
`destroy_serial`: without overlap the two steps are the controller's
action).

* `quota_kept`: the number of posts stays within the plan's limit in every
  run in which a create passes its filters only while no other create is
  past them and unsaved, or the plan has room for all of these.
* `overlapping_creates_exceed_quota`: two creates that both read the count
  before either saves go over it.
-/
namespace Insta.Concurrency

open Insta.Core Insta.Store Insta.Model Insta.Web

/-- Where a request is: before its filters, past them, or answered. -/
inductive PostThread
  | create (p : PostParams)
  | granted (p : PostParams)
  | destroy (id : IdParam)
  | found (post : Nat)
  | done
  deriving DecidableEq

def PostThread.isGranted : PostThread → Bool
  | .granted _ => true
  | _ => false

/-- One atomic step of a request of user `u`. -/
def postStep (lib : Lib) (u : Nat) (w : World) : PostThread → Option (World × PostThread)
  | .create p =>
    match (postsCreateFilters (some u)).run w with
    | (.ok _, w') => some (w', .granted p)
    | (.error _, w') => some (w', .done)
  | .granted p => some (((savePost lib u p).run w).2, .done)
  | .destroy id =>
    match (postsDestroyFilters (some u) id).run w with
    | (.ok r, w') => some (w', .found r.id)
    | (.error _, w') => some (w', .done)
  | .found i => some ({ w with db := destroyPost w.db i }, .done)
  | .done => none

/-- Creates that are past their filters and not saved. -/
def pending (s : Sys World PostThread) : Nat := s.threads.countP PostThread.isGranted

/-- A non-admin on a plan for `n` posts, with no more than that, and any
number of requests that have not begun. -/
structure QuotaStart (u n : Nat) (s : Sys World PostThread) : Prop where
  user : ∃ me, s.shared.db.users.find u = some me ∧ me.role ≠ .admin
  plan : ∃ sub, currentSubscription s.shared.db u = some sub ∧ currentPlan s.shared.db sub = .ok (.upTo n)
  count : postsCount s.shared.db u ≤ n
  threads : ∀ t ∈ s.threads, t.isGranted = false

def postSystem (lib : Lib) (u n : Nat) : LTS (Sys World PostThread) Nat :=
  interleave (QuotaStart u n) (postStep lib u)

/-- A create passes its filters only while none is past them, or while the
plan has room for these and it. -/
def QuotaGuard (u n : Nat) (s : Sys World PostThread) (i : Nat) : Prop :=
  ∀ p, s.threads[i]? = some (.create p) →
    pending s = 0 ∨ postsCount s.shared.db u + pending s < n

/-! ## The steps are the controllers' actions -/

theorem create_serial {lib : Lib} {u : Nat} {w : World} {p : PostParams} {me : UserRow}
    (h : (postsCreateFilters (some u)).run w = (.ok me, w)) (hu : me.id = u) :
    [0, 0].foldlM (fire (postStep lib u)) ⟨w, [.create p]⟩ =
      some ⟨((postsCreate lib (some u) p).run w).2, [.done]⟩ := by
  unfold postsCreate
  rw [Act.bind_of_ok h, hu]
  simp [fire, postStep, h]

theorem destroy_serial {lib : Lib} {u : Nat} {w : World} {id : IdParam} {r : PostRow}
    (h : (postsDestroyFilters (some u) id).run w = (.ok r, w)) :
    [0, 0].foldlM (fire (postStep lib u)) ⟨w, [.destroy id]⟩ =
      some ⟨((postsDestroy (some u) id).run w).2, [.done]⟩ := by
  unfold postsDestroy
  rw [Act.bind_of_ok h]
  simp [fire, postStep, h]

/-! ## What a step does to the count and to the plan -/

/-- The rows `Ability` reads besides the posts. -/
def planRows (w : World) : Table UserRow × Table SubscriptionRow × Table ProductRow :=
  (w.db.users, w.db.subscriptions, w.db.products)

theorem savePost_count (lib : Lib) (u : Nat) (p : PostParams) (w : World) :
    planRows ((savePost lib u p).run w).2 = planRows w ∧
    postsCount ((savePost lib u p).run w).2.db u ≤ postsCount w.db u + 1 := by
  unfold savePost
  rw [Act.run_get_bind]
  dsimp only
  split
  · exact ⟨rfl, Nat.le_succ _⟩
  · split
    · exact ⟨rfl, Nat.le_succ _⟩
    · split
      · exact ⟨rfl, Nat.le_succ _⟩
      · rename_i t ht
        exact ⟨rfl, Table.countP_insert_le _ ht⟩

theorem destroyPost_count (db : Db) (i u : Nat) : postsCount (destroyPost db i) u ≤ postsCount db u :=
  List.Sublist.countP_le List.filter_sublist

/-- What a step of a request does: the filters let a create through, or the
posts and the creates let through together do not grow. -/
theorem postStep_cases {lib : Lib} {u : Nat} {w w' : World} {t t' : PostThread}
    (h : postStep lib u w t = some (w', t')) :
    (∃ p me, t = .create p ∧ t' = .granted p ∧ w' = w ∧
      (postsCreateFilters (some u)).run w = (.ok me, w)) ∨
    (planRows w' = planRows w ∧
      postsCount w'.db u + t'.isGranted.toNat ≤ postsCount w.db u + t.isGranted.toNat) := by
  cases t with
  | create p =>
    have hsnd := postsCreateFilters_snd (some u) w
    simp only [postStep] at h
    split at h
    · rename_i me _ hrun
      cases h
      rw [hrun] at hsnd
      cases hsnd
      exact .inl ⟨p, me, rfl, rfl, rfl, hrun⟩
    · rename_i hrun
      cases h
      rw [hrun] at hsnd
      cases hsnd
      exact .inr ⟨rfl, le_rfl⟩
  | granted p =>
    cases h
    exact .inr (savePost_count lib u p w)
  | destroy id =>
    have hsnd := postsDestroyFilters_snd (some u) id w
    simp only [postStep] at h
    split at h
    all_goals
      rename_i hrun
      cases h
      rw [hrun] at hsnd
      cases hsnd
      exact .inr ⟨rfl, le_rfl⟩
  | found i =>
    cases h
    exact .inr ⟨rfl, destroyPost_count w.db i u⟩
  | done => cases h

/-- What the filters let through on a plan with a limit: the count is below
it. -/
theorem count_lt_of_granted {u n : Nat} {w w' : World} {me r : UserRow} {sub : SubscriptionRow}
    (hme : w.db.users.find u = some me) (hrole : me.role ≠ .admin)
    (hsub : currentSubscription w.db u = some sub) (hplan : currentPlan w.db sub = .ok (.upTo n))
    (h : (postsCreateFilters (some u)).run w = (.ok r, w')) : postsCount w.db u < n := by
  obtain ⟨x, w₁, hauth, hrest⟩ := Act.bind_ok h
  obtain ⟨rfl, hcur, -⟩ := authenticate_ok hauth
  have hx : x = me := Option.some_inj.1 (hcur.symm.trans hme)
  subst hx
  have hid : x.id = u := (Table.mem_of_find hme).2
  obtain ⟨_, w₂, hcan, -⟩ := Act.bind_ok hrest
  have hw₂ : w₂ = w₁ := (congrArg Prod.snd hcan).symm.trans (authorize_snd ..)
  subst hw₂
  obtain ⟨sub', plan, hsub', hplan', hroom⟩ := (allowed_create_iff hrole).1 (authorize_ok_iff.1 hcan)
  rw [hid] at hsub' hroom
  cases hsub.symm.trans hsub'
  cases hplan.symm.trans hplan'
  exact of_decide_eq_true hroom

/-! ## The quota -/

structure QuotaInv (u n : Nat) (s : Sys World PostThread) : Prop where
  user : ∃ me, s.shared.db.users.find u = some me ∧ me.role ≠ .admin
  plan : ∃ sub, currentSubscription s.shared.db u = some sub ∧ currentPlan s.shared.db sub = .ok (.upTo n)
  room : postsCount s.shared.db u + pending s ≤ n

/-- A step that leaves the plan's rows alone and keeps the room keeps the
invariant. -/
theorem QuotaInv.of_rows {u n : Nat} {s s' : Sys World PostThread} (hi : QuotaInv u n s)
    (hrows : planRows s'.shared = planRows s.shared)
    (hroom : postsCount s'.shared.db u + pending s' ≤ n) : QuotaInv u n s' := by
  simp only [planRows, Prod.mk.injEq] at hrows
  obtain ⟨hu, hs, hp⟩ := hrows
  obtain ⟨user, plan, -⟩ := hi
  refine ⟨by rw [hu]; exact user, ?_, hroom⟩
  simpa only [currentSubscription, currentPlan, hs, hp] using plan

theorem quotaInv_step {lib : Lib} {u n i : Nat} {s s' : Sys World PostThread} (hi : QuotaInv u n s)
    (hg : QuotaGuard u n s i) (h : fire (postStep lib u) s i = some s') : QuotaInv u n s' := by
  obtain ⟨t, w', t', ht, hstep, rfl⟩ := fire_cases h
  have hcount : (s.threads.set i t').countP PostThread.isGranted + t.isGranted.toNat =
      s.threads.countP PostThread.isGranted + t'.isGranted.toNat := countP_threads ht _ PostThread.isGranted
  have hroom := hi.room
  unfold pending at hroom
  rcases postStep_cases hstep with ⟨p, me, rfl, rfl, rfl, hrun⟩ | ⟨hrows, hle⟩
  · obtain ⟨me', hme, hrole⟩ := hi.user
    obtain ⟨sub, hsub, hplan⟩ := hi.plan
    have hlt := count_lt_of_granted hme hrole hsub hplan hrun
    have hbelow : postsCount s.shared.db u + s.threads.countP PostThread.isGranted < n := by
      rcases hg p ht with h0 | hlt'
      · unfold pending at h0; omega
      · exact hlt'
    refine hi.of_rows rfl ?_
    simp only [pending, PostThread.isGranted, Bool.toNat_false, Bool.toNat_true] at hcount ⊢
    omega
  · refine hi.of_rows hrows ?_
    simp only [pending]
    omega

theorem quota_kept (lib : Lib) (u n : Nat) (s : Sys World PostThread)
    (h : ((postSystem lib u n).guard (QuotaGuard u n)).Reachable s) : postsCount s.shared.db u ≤ n := by
  have hind : ((postSystem lib u n).guard (QuotaGuard u n)).Inductive (QuotaInv u n) := by
    refine ⟨fun s hs => ⟨hs.user, hs.plan, ?_⟩, fun s i s' hi hs => quotaInv_step hi hs.2 hs.1⟩
    have hnone : pending s = 0 := List.countP_eq_zero.2 fun t ht => by simp [hs.threads t ht]
    have := hs.count
    omega
  have := (hind.reachable s h).room
  omega

/-! ## Two creates on a plan for two posts -/

/-- The user of `shop` on the two-post plan, with one post. -/
def nearLimit : World :=
  { shop with db := { shop.db with
    subscriptions := ⟨[⟨1, 1, some "sub_1", 1, some "cus_1", some "active", some true, some "#2 Posts",
      some "prod_2", none, some "alice"⟩], 2, List.pairwise_singleton _ _, List.pairwise_singleton _ _, by decide⟩
    posts := ⟨[⟨1, some "a.png", some "first", some "text", 1, some "first", 0, 0⟩], 2,
      List.pairwise_singleton _ _, List.pairwise_singleton _ _, by decide⟩ } }

def secondPost : PostParams :=
  { image := some (some "b.png"), title := some (some "second"), description := some (some "text") }

def twoCreates : Sys World PostThread := ⟨nearLimit, [.create secondPost, .create secondPost]⟩

theorem twoCreates_start : QuotaStart 1 2 twoCreates where
  user := ⟨aliceRow, rfl, by decide⟩
  plan := ⟨_, rfl, rfl⟩
  count := by decide
  threads := by decide

def afterSchedule (ls : List Nat) : Sys World PostThread :=
  (ls.foldlM (fire (postStep plainLib 1)) twoCreates).getD twoCreates

/-- One after the other, the second create is refused. -/
theorem serial_creates_within_quota :
    ((postSystem plainLib 1 2).guard (QuotaGuard 1 2)).Reachable (afterSchedule [0, 0, 1]) ∧
    postsCount (afterSchedule [0, 0, 1]).shared.db 1 ≤ 2 := by
  have hreach : ((postSystem plainLib 1 2).guard (QuotaGuard 1 2)).Reachable (afterSchedule [0, 0, 1]) := by
    refine ⟨twoCreates, [0, 0, 1], twoCreates_start, .cons ⟨rfl, fun _ _ => .inl rfl⟩
      (.cons ⟨rfl, fun _ h => ?_⟩ (.cons ⟨rfl, fun _ _ => .inl rfl⟩ (.nil _)))⟩
    cases h
  exact ⟨hreach, quota_kept plainLib 1 2 _ hreach⟩

/-- Both creates read one post, then both save. -/
theorem overlapping_creates_exceed_quota :
    (postSystem plainLib 1 2).Reachable (afterSchedule [0, 1, 0, 1]) ∧
    ¬ postsCount (afterSchedule [0, 1, 0, 1]).shared.db 1 ≤ 2 :=
  ⟨⟨twoCreates, [0, 1, 0, 1], twoCreates_start, LTS.ofFn_run_iff.2 rfl⟩, by decide⟩

end Insta.Concurrency
