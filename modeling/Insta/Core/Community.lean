import Mathlib.Data.Set.Insert
import Insta.Core.Lts

/-!
# Communities

Members, the posts they have written and the likes they have given, with
what each may do. A value of `Community` has no post without its author and
no like without its post and its member; a key that was given out once is
not given out again, even when the member has left or the post is gone.

* `Community.Step`: who may do what, and what it does. Whoever leaves takes
  along their posts, their likes and the likes of their posts.
* `follows_of_run`: in every run, a member whose key was known is the member
  it was, and a post whose key was used has the author it had.
-/
namespace Insta.Core

@[ext] structure Community (M P : Type) where
  members : Set M
  known : Set M
  author : P → Option M
  used : Set P
  likes : Set (P × M)
  members_known : ∀ m ∈ members, m ∈ known
  author_mem : ∀ p m, author p = some m → m ∈ members
  author_used : ∀ p m, author p = some m → p ∈ used
  liked_post : ∀ p m, (p, m) ∈ likes → (author p).isSome
  liker_mem : ∀ p m, (p, m) ∈ likes → m ∈ members

/-- On whose behalf something happens; the provider is who the members'
accounts are kept with. -/
inductive Actor (M : Type)
  | guest | provider
  | member (m : M)
  | admin (m : M)

def Actor.is {M : Type} (m : M) : Actor M → Prop
  | .member x | .admin x => x = m
  | _ => False

def Actor.isAdmin {M : Type} : Actor M → Prop
  | .admin _ => True
  | _ => False

def Actor.isMember {M : Type} (a : Actor M) : Prop := ∃ m, a.is m

inductive Deed (M P : Type)
  | join (m : M)
  | leave (m : M)
  | publish (p : P) (m : M)
  | retract (p : P)
  | like (p : P) (m : M)
  | unlike (p : P) (m : M)

namespace Community

variable {M P : Type}

/-! ## Deeds -/

def join (c : Community M P) (m : M) : Community M P :=
  { c with
    members := insert m c.members
    known := insert m c.known
    members_known := fun _ hx => hx.imp_right (c.members_known _)
    author_mem := fun p x h => .inr (c.author_mem p x h)
    liker_mem := fun p x h => .inr (c.liker_mem p x h) }

open Classical in
noncomputable def leave (c : Community M P) (m : M) : Community M P :=
  { c with
    members := { x ∈ c.members | x ≠ m }
    author := fun p => if c.author p = some m then none else c.author p
    likes := { x ∈ c.likes | x.2 ≠ m ∧ c.author x.1 ≠ some m }
    members_known := fun x hx => c.members_known x hx.1
    author_mem := fun p x h => by
      split at h
      · cases h
      · rename_i hne
        exact ⟨c.author_mem p x h, fun hx => hne (hx ▸ h)⟩
    author_used := fun p x h => by
      split at h
      · cases h
      · exact c.author_used p x h
    liked_post := fun p x h => by
      rw [if_neg h.2.2]
      exact c.liked_post p x h.1
    liker_mem := fun p x h => ⟨c.liker_mem p x h.1, h.2.1⟩ }

open Classical in
noncomputable def publish (c : Community M P) (p : P) (m : M) (hm : m ∈ c.members) : Community M P :=
  { c with
    author := fun x => if x = p then some m else c.author x
    used := insert p c.used
    author_mem := fun x y h => by
      split at h
      · cases h
        exact hm
      · exact c.author_mem x y h
    author_used := fun x y h => by
      split at h
      · rename_i hx
        exact .inl hx
      · exact .inr (c.author_used x y h)
    liked_post := fun x y h => by
      split
      · rfl
      · exact c.liked_post x y h }

open Classical in
noncomputable def retract (c : Community M P) (p : P) : Community M P :=
  { c with
    author := fun x => if x = p then none else c.author x
    likes := { x ∈ c.likes | x.1 ≠ p }
    author_mem := fun x y h => by
      split at h
      · cases h
      · exact c.author_mem x y h
    author_used := fun x y h => by
      split at h
      · cases h
      · exact c.author_used x y h
    liked_post := fun x y h => by
      rw [if_neg h.2]
      exact c.liked_post x y h.1
    liker_mem := fun x y h => c.liker_mem x y h.1 }

def like (c : Community M P) (p : P) (m : M) (hp : (c.author p).isSome) (hm : m ∈ c.members) : Community M P :=
  { c with
    likes := insert (p, m) c.likes
    liked_post := fun x y h => by
      rcases h with h | h
      · cases h
        exact hp
      · exact c.liked_post x y h
    liker_mem := fun x y h => by
      rcases h with h | h
      · cases h
        exact hm
      · exact c.liker_mem x y h }

def unlike (c : Community M P) (p : P) (m : M) : Community M P :=
  { c with
    likes := { x ∈ c.likes | x ≠ (p, m) }
    liked_post := fun x y h => c.liked_post x y h.1
    liker_mem := fun x y h => c.liker_mem x y h.1 }

theorem author_leave {c : Community M P} {m x : M} {p : P} :
    (c.leave m).author p = some x ↔ c.author p = some x ∧ x ≠ m := by
  unfold leave
  dsimp only
  split
  · rename_i h
    rw [h, Option.some.injEq]
    exact ⟨nofun, fun hx => absurd hx.1.symm hx.2⟩
  · rename_i h
    exact ⟨fun hx => ⟨hx, fun he => h (he ▸ hx)⟩, fun hx => hx.1⟩

theorem author_publish {c : Community M P} {m x : M} {p q : P} {hm : m ∈ c.members} :
    (c.publish p m hm).author q = some x ↔ (q = p ∧ x = m) ∨ (q ≠ p ∧ c.author q = some x) := by
  unfold publish
  dsimp only
  split
  · rename_i h
    simp [h, eq_comm]
  · rename_i h
    simp [h]

theorem author_retract {c : Community M P} {x : M} {p q : P} :
    (c.retract p).author q = some x ↔ q ≠ p ∧ c.author q = some x := by
  unfold retract
  dsimp only
  split
  · rename_i h
    simp [h]
  · rename_i h
    simp [h]

/-! ## Who may do what -/

inductive Step (c : Community M P) : Actor M × Deed M P → Community M P → Prop
  | join {a : Actor M} {m : M} (hnew : m ∉ c.known) : Step c (a, .join m) (c.join m)
  | leave {a : Actor M} {m : M} (hmay : a.is m ∨ a.isAdmin ∨ a = .provider) : Step c (a, .leave m) (c.leave m)
  | publish {a : Actor M} {p : P} {m : M} (hmay : a.is m) (hm : m ∈ c.members) (hnew : p ∉ c.used) :
    Step c (a, .publish p m) (c.publish p m hm)
  | retract {a : Actor M} {p : P} (hmay : (∃ m, c.author p = some m ∧ a.is m) ∨ a.isAdmin) :
    Step c (a, .retract p) (c.retract p)
  | like {a : Actor M} {p : P} {m : M} (hmay : a.isMember) (hp : (c.author p).isSome) (hm : m ∈ c.members) :
    Step c (a, .like p m) (c.like p m hp hm)
  | unlike {a : Actor M} {p : P} {m : M} (hmay : a.isMember) : Step c (a, .unlike p m) (c.unlike p m)

def machine (M P : Type) : LTS (Community M P) (Actor M × Deed M P) where
  init _ := True
  step := Step

/-! ## Keys -/

/-- What was known stays known, and who was known and is there was there
before. -/
structure Follows (c c' : Community M P) : Prop where
  known : ∀ m ∈ c.known, m ∈ c'.known
  member : ∀ m ∈ c.known, m ∈ c'.members → m ∈ c.members
  used : ∀ p ∈ c.used, p ∈ c'.used
  author : ∀ p ∈ c.used, ∀ m, c'.author p = some m → c.author p = some m

theorem Follows.refl (c : Community M P) : Follows c c :=
  ⟨fun _ h => h, fun _ _ h => h, fun _ h => h, fun _ _ _ h => h⟩

theorem Follows.trans {a b c : Community M P} (h₁ : Follows a b) (h₂ : Follows b c) : Follows a c where
  known m hm := h₂.known m (h₁.known m hm)
  member m hm hc := h₁.member m hm (h₂.member m (h₁.known m hm) hc)
  used p hp := h₂.used p (h₁.used p hp)
  author p hp m hm := h₁.author p hp m (h₂.author p (h₁.used p hp) m hm)

theorem Step.follows {c c' : Community M P} {l : Actor M × Deed M P} (h : Step c l c') : Follows c c' := by
  cases h with
  | @join a m hnew =>
    refine ⟨fun _ h => .inr h, fun x hx h => ?_, fun _ h => h, fun _ _ _ h => h⟩
    rcases h with rfl | h
    · exact absurd hx hnew
    · exact h
  | @leave a m hmay =>
    exact ⟨fun _ h => h, fun x _ h => h.1, fun _ h => h, fun p _ x h => (author_leave.1 h).1⟩
  | @publish a p m hmay hm hnew =>
    refine ⟨fun _ h => h, fun _ _ h => h, fun _ h => .inr h, fun x hx y h => ?_⟩
    rcases author_publish.1 h with ⟨rfl, -⟩ | ⟨-, hy⟩
    · exact absurd hx hnew
    · exact hy
  | @retract a p hmay =>
    exact ⟨fun _ h => h, fun _ _ h => h, fun _ h => h, fun x _ y h => (author_retract.1 h).2⟩
  | like => exact ⟨fun _ h => h, fun _ _ h => h, fun _ h => h, fun _ _ _ h => h⟩
  | unlike => exact ⟨fun _ h => h, fun _ _ h => h, fun _ h => h, fun _ _ _ h => h⟩

theorem follows_of_run {c c' : Community M P} {ls : List (Actor M × Deed M P)}
    (h : (machine M P).Run c ls c') : Follows c c' := by
  induction h with
  | nil => exact .refl _
  | cons hs _ ih => exact (Step.follows hs).trans ih

end Community

end Insta.Core
