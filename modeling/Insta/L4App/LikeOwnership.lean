import Insta.L4App.Effects

/-!
# Whose like it is

The views build the like and unlike forms from `current_user`; the
controller takes the liker from the parameters and destroys whatever like
the id names.

* `like_ownership`: in every run in which each `likes#create` names the user
  who makes it and each `likes#destroy` a like of that user, a like was
  given by its user, and is withdrawn by its user or goes with its post, the
  post's owner or its user.
* `forged_and_withdrawn`: without that, another user gives and withdraws it.
-/
namespace Insta.Web

open Insta.Core Insta.Store Insta.Model Insta.Service

/-- How a request can take the like `l` away. -/
inductive Withdraws (w : World) (actor : Option Nat) (l : LikeRow) : Request → Prop
  | unliked : Withdraws w actor l (.likesDestroy l.id)
  | withPost {id : IdParam} {p : PostRow} (hp : friendlyFind PostRow.slug w.db.posts id = some p)
    (hid : p.id = l.postId) : Withdraws w actor l (.postsDestroy id)
  | withOwner {q : Request} {r : UserRow} (hr : Closes w actor r q) (hown : owns w.db r.id l.postId = true) :
    Withdraws w actor l q
  | withUser {q : Request} {r : UserRow} (hr : Closes w actor r q) (hid : r.id = l.userId) : Withdraws w actor l q

/-- What a request may have made of the likes of `w₀`. -/
structure LikesKept (w₀ : World) (actor : Option Nat) (q : Request) (db : Db) : Prop where
  added : ∀ l ∈ db.likes.rows, l ∈ w₀.db.likes.rows ∨ q = .likesCreate l.postId l.userId
  withdrawn : ∀ l ∈ w₀.db.likes.rows, l ∈ db.likes.rows ∨ Withdraws w₀ actor l q

section Kept

variable {w₀ : World} {actor : Option Nat} {q : Request} {db db' : Db}

theorem LikesKept.refl (w₀ : World) (actor : Option Nat) (q : Request) : LikesKept w₀ actor q w₀.db :=
  ⟨fun _ => .inl, fun _ => .inl⟩

theorem LikesKept.same (h : LikesKept w₀ actor q db) (hdb : db'.likes = db.likes) : LikesKept w₀ actor q db' :=
  ⟨fun l hl => h.added l (hdb ▸ hl), fun l hl => (h.withdrawn l hl).imp_left fun hl => hdb ▸ hl⟩

theorem LikesKept.delete (h : LikesKept w₀ actor q db) {p : LikeRow → Bool} (hdb : db'.likes = db.likes.delete p)
    (hp : ∀ l ∈ db.likes.rows, p l = true → Withdraws w₀ actor l q) : LikesKept w₀ actor q db' := by
  refine ⟨fun l hl => ?_, fun l hl => ?_⟩
  · rw [hdb] at hl
    exact h.added l (Table.mem_delete.1 hl).1
  · rcases h.withdrawn l hl with hl | hd
    · cases hpl : p l with
      | true => exact .inr (hp l hl hpl)
      | false => exact .inl (by rw [hdb]; exact Table.mem_delete.2 ⟨hl, hpl⟩)
    · exact .inr hd

theorem LikesKept.content (h : LikesKept w₀ actor q db) (hw : ContentWrite w₀ actor q db db') :
    LikesKept w₀ actor q db' := by
  cases hw with
  | @postDropped me r hdb hme hr hby =>
    subst hdb
    obtain ⟨id, rfl, hfind⟩ := hr
    exact h.delete rfl fun l _ hl => .withPost hfind (beq_iff_eq.1 hl).symm
  | @liked me post user hme hq =>
    rcases createLike_cases db post user with he | ⟨t, -, -, -, ht, he⟩ <;> rw [he]
    · exact h
    · refine ⟨fun l hl => ?_, fun l hl => (h.withdrawn l hl).imp_left fun hl => (Table.mem_insert ht).2 (.inl hl)⟩
      rcases (Table.mem_insert ht).1 hl with hl | rfl
      · exact h.added l hl
      · exact .inr hq
  | @unliked me l hme hl hq =>
    refine h.delete rfl fun x hx hid => ?_
    have hxl : x = l := db.likes.eq_of_rowId hx hl (beq_iff_eq.1 hid)
    subst hxl
    rw [hq]
    exact .unliked
  | _ => exact h.same rfl

theorem LikesKept.effect {lib : Lib} {w w' : World} (h : LikesKept w₀ actor q w.db)
    (he : Effect lib w₀ actor q w w') : LikesKept w₀ actor q w'.db := by
  rcases he.db_cases with ⟨t, hdb⟩ | ⟨r, hby, hposts, -, hdb⟩ | hw
  · exact h.same (by rw [hdb])
  · have hc := destroyUserCascade_spec w.db r.id
    refine h.delete (by rw [hdb]; exact hc.likes) fun l _ hl => ?_
    have howns : owns w.db r.id l.postId = owns w₀.db r.id l.postId := by unfold owns; rw [hposts]
    rcases Bool.or_eq_true_iff.1 hl with hown | hu
    · exact .withOwner hby (howns ▸ hown)
    · exact .withUser hby (beq_iff_eq.1 hu).symm
  · exact h.content hw

end Kept

/-! ## Runs -/

/-- The script of a request's external calls decides nothing here. -/
theorem Closes.script {w : World} {sc : List (Option Fault)} {actor : Option Nat} {r : UserRow} {q : Request}
    (h : Closes { w with script := sc } actor r q) : Closes w actor r q := by
  cases h with
  | account hme => exact .account hme
  | own hme => exact .own hme
  | byAdmin hme hadmin hr => exact .byAdmin hme hadmin hr
  | reported he hr => exact .reported he hr

theorem Withdraws.script {w : World} {sc : List (Option Fault)} {actor : Option Nat} {l : LikeRow} {q : Request}
    (h : Withdraws { w with script := sc } actor l q) : Withdraws w actor l q := by
  cases h with
  | unliked => exact .unliked
  | withPost hp hid => exact .withPost hp hid
  | withOwner hr hown => exact .withOwner hr.script hown
  | withUser hr hid => exact .withUser hr.script hid

/-- A `likes#create` is for the user who makes it, a `likes#destroy` for a
like of that user. -/
def LikeGuard (w : World) : Label → Prop
  | .call c => (∀ post user, c.req = .likesCreate post user → c.actor = some user) ∧
    ∀ id l, c.req = .likesDestroy id → w.db.likes.find id = some l → c.actor = some l.userId
  | _ => True

/-- What one step does to the likes. -/
theorem likes_step {lib : Lib} {a b : World} {l : Label} (h : (system lib).step a l b) :
    (∀ x ∈ b.db.likes.rows, x ∉ a.db.likes.rows → ∃ c, l = .call c ∧ c.req = .likesCreate x.postId x.userId) ∧
    ∀ x ∈ a.db.likes.rows, x ∉ b.db.likes.rows → ∃ c, l = .call c ∧ Withdraws a c.actor x c.req := by
  rcases step_cases h with ⟨c, rfl, rfl⟩ | hdb
  · have hkept : LikesKept { a with script := c.script } c.actor c.req (serve lib a c).db :=
      serve_keeps (I := fun x => LikesKept { a with script := c.script } c.actor c.req x.db)
        (fun _ _ he h => h.effect he) (.refl _ _ _)
    refine ⟨fun x hx hn => ⟨c, rfl, ?_⟩, fun x hx hn => ⟨c, rfl, ?_⟩⟩
    · exact (hkept.added x hx).resolve_left hn
    · exact ((hkept.withdrawn x hx).resolve_left hn).script
  · rw [hdb]
    exact ⟨fun x hx hn => absurd hx hn, fun x hx hn => absurd hx hn⟩

/-- Of the ways a like goes, `likes#destroy` is the one that names it. -/
theorem Withdraws.id {w : World} {actor : Option Nat} {l : LikeRow} {id : Nat}
    (h : Withdraws w actor l (.likesDestroy id)) : id = l.id := by
  cases h with
  | unliked => rfl
  | withOwner hr _ => cases hr
  | withUser hr _ => cases hr

/-- A like is given and withdrawn by its user, or goes with its post, the
post's owner or its user. -/
theorem like_ownership (lib : Lib) (w₀ w : World) (ls : List Label)
    (h : ((system lib).guard LikeGuard).Run w₀ ls w) :
    (∀ x ∈ w.db.likes.rows, x ∈ w₀.db.likes.rows ∨
      ∃ a c b, ((system lib).guard LikeGuard).StepOf w₀ ls w a (.call c) b ∧
        x ∉ a.db.likes.rows ∧ x ∈ b.db.likes.rows ∧
        c.req = .likesCreate x.postId x.userId ∧ c.actor = some x.userId) ∧
    ∀ a l b, ((system lib).guard LikeGuard).StepOf w₀ ls w a l b → ∀ x ∈ a.db.likes.rows,
      x ∉ b.db.likes.rows → ∃ c, l = .call c ∧ Withdraws a c.actor x c.req ∧
        ∀ id, c.req = .likesDestroy id → c.actor = some x.userId := by
  refine ⟨fun x hx => or_iff_not_imp_left.2 fun h₀ => ?_, fun a l b hstep x hx hn => ?_⟩
  · obtain ⟨a, l, b, hstep, hna, hb⟩ := h.exists_step (P := fun w => x ∈ w.db.likes.rows) h₀ hx
    obtain ⟨hs, hguard⟩ := hstep.step
    obtain ⟨c, rfl, hreq⟩ := (likes_step hs).1 x hb hna
    exact ⟨a, c, b, hstep, hna, hb, hreq, hguard.1 _ _ hreq⟩
  · obtain ⟨hs, hguard⟩ := hstep.step
    obtain ⟨c, rfl, hw⟩ := (likes_step hs).2 x hx hn
    refine ⟨c, rfl, hw, fun id hreq => hguard.2 id x hreq ?_⟩
    rw [hreq] at hw
    rw [hw.id]
    exact Table.find_of_mem hx

/-- The first user of `neighbours` likes the post, and thinks better of it. -/
def likedAndUnliked : List Label := [.call ⟨some 1, .likesCreate 1 1, []⟩, .call ⟨some 1, .likesDestroy 1, []⟩]

theorem liked_and_unliked_by_user :
    ((system plainLib).guard LikeGuard).Run neighbours likedAndUnliked
      (likedAndUnliked.foldl (next plainLib) neighbours) ∧
    ∀ x ∈ (likedAndUnliked.foldl (next plainLib) neighbours).db.likes.rows, x ∈ neighbours.db.likes.rows ∨
      ∃ a c b, ((system plainLib).guard LikeGuard).StepOf neighbours likedAndUnliked
          (likedAndUnliked.foldl (next plainLib) neighbours) a (.call c) b ∧
        x ∉ a.db.likes.rows ∧ x ∈ b.db.likes.rows ∧
        c.req = .likesCreate x.postId x.userId ∧ c.actor = some x.userId := by
  have hrun : ((system plainLib).guard LikeGuard).Run neighbours likedAndUnliked
      (likedAndUnliked.foldl (next plainLib) neighbours) := by
    refine .cons ⟨system_step.2 rfl, fun _ _ h => ?_, fun _ _ h => ?_⟩
      (.cons ⟨system_step.2 rfl, fun _ _ h => ?_, fun _ _ h hl => ?_⟩ (.nil _))
    · cases h; rfl
    · cases h
    · cases h
    · cases h
      have hfind : (next plainLib neighbours (.call ⟨some 1, .likesCreate 1 1, []⟩)).db.likes.find 1 =
        some ⟨1, 1, 1⟩ := by decide
      cases hfind.symm.trans hl
      rfl
  exact ⟨hrun, (like_ownership plainLib _ _ _ hrun).1⟩

/-- The other user of `neighbours` gives the first one's like and withdraws
it. -/
def forgedLike : Call := ⟨some 2, .likesCreate 1 1, []⟩

def forgedUnlike : Call := ⟨some 2, .likesDestroy 1, []⟩

theorem forged_and_withdrawn :
    (system plainLib).Run neighbours [.call forgedLike] (serve plainLib neighbours forgedLike) ∧
    (system plainLib).Run neighbours [.call forgedLike, .call forgedUnlike]
      (serve plainLib (serve plainLib neighbours forgedLike) forgedUnlike) ∧
    neighbours.db.likes.rows = [] ∧
    (serve plainLib neighbours forgedLike).db.likes.rows = [⟨1, 1, 1⟩] ∧
    (serve plainLib (serve plainLib neighbours forgedLike) forgedUnlike).db.likes.rows = [] ∧
    forgedLike.actor ≠ some 1 ∧ forgedUnlike.actor ≠ some 1 :=
  ⟨LTS.ofFn_run_iff.2 rfl, LTS.ofFn_run_iff.2 rfl, rfl, by decide, by decide, by decide, by decide⟩

end Insta.Web
