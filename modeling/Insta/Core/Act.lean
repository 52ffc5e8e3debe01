import Mathlib.Logic.Basic

/-!
# Actions that return or raise, with rollback

A request handler reads and writes a state, may raise at any point, and
leaves a state either way: the part of the state a transaction covers is
rolled back, the rest (calls to other systems, queued jobs) is not.

* `Act S E α`: such a computation, with `raise`, `rescue` and
  `atomically` (a transaction, over the `Rollback` of the state).
* `bind_of_ok`, `bind_of_error`: how a sequence evaluates.
* `Frame`: a reflexive and transitive relation on states that says what a
  computation may change. `Frame.Holds F x s` says `x` started in `s` stays
  within `F`, returning or raising; the rules below give it for a
  composition from its parts (`Frame.Holds.bind`, `.ite`, `.rescue`).
-/
namespace Insta.Core

/-- A computation on `S` that returns an `α` or raises an `E`. -/
structure Act (S E α : Type) where
  run : S → Except E α × S

namespace Act

variable {S E α β : Type}

protected def pure (a : α) : Act S E α := ⟨fun s => (.ok a, s)⟩

protected def bind (x : Act S E α) (f : α → Act S E β) : Act S E β where
  run s :=
    match x.run s with
    | (.ok a, s') => (f a).run s'
    | (.error e, s') => (.error e, s')

instance : Monad (Act S E) where
  pure := Act.pure
  bind := Act.bind

def get : Act S E S := ⟨fun s => (.ok s, s)⟩

def modify (f : S → S) : Act S E Unit := ⟨fun s => (.ok (), f s)⟩

def raise (e : E) : Act S E α := ⟨fun s => (.error e, s)⟩

/-- `x` with the exceptions that `h` takes replaced by a value. -/
def rescue (x : Act S E α) (h : E → Option α) : Act S E α where
  run s :=
    match x.run s with
    | (.ok a, s') => (.ok a, s')
    | (.error e, s') =>
      match h e with
      | some a => (.ok a, s')
      | none => (.error e, s')

@[simp] theorem run_pure (a : α) (s : S) : (pure a : Act S E α).run s = (.ok a, s) := rfl
@[simp] theorem run_raise (e : E) (s : S) : (raise e : Act S E α).run s = (.error e, s) := rfl
@[simp] theorem run_modify (f : S → S) (s : S) : (modify f : Act S E Unit).run s = (.ok (), f s) := rfl

@[simp] theorem run_get_bind (f : S → Act S E β) (s : S) : (get >>= f).run s = (f s).run s := rfl
@[simp] theorem run_modify_bind (g : S → S) (f : Unit → Act S E β) (s : S) :
    (modify g >>= f).run s = (f ()).run (g s) := rfl

theorem bind_of_ok {x : Act S E α} {f : α → Act S E β} {s s' : S} {a : α}
    (h : x.run s = (.ok a, s')) : (x >>= f).run s = (f a).run s' := by
  show (Act.bind x f).run s = _
  simp only [Act.bind, h]

theorem bind_of_error {x : Act S E α} {f : α → Act S E β} {s s' : S} {e : E}
    (h : x.run s = (.error e, s')) : (x >>= f).run s = (.error e, s') := by
  show (Act.bind x f).run s = _
  simp only [Act.bind, h]

/-- What a sequence that returned did. -/
theorem bind_ok {x : Act S E α} {f : α → Act S E β} {s s' : S} {b : β}
    (h : (x >>= f).run s = (.ok b, s')) :
    ∃ a s₁, x.run s = (.ok a, s₁) ∧ (f a).run s₁ = (.ok b, s') := by
  rcases hx : x.run s with ⟨r | a, s₁⟩
  · rw [bind_of_error hx] at h; cases h
  · rw [bind_of_ok hx] at h; exact ⟨a, s₁, rfl, h⟩

/-- What is made of the result does not matter for the state. -/
theorem bind_pure_snd (x : Act S E α) (f : α → β) (s : S) :
    ((x >>= fun a => pure (f a)).run s).2 = (x.run s).2 := by
  rcases hx : x.run s with ⟨e | a, s'⟩
  · rw [bind_of_error hx]
  · rw [bind_of_ok hx]
    rfl

theorem bind_assoc {γ : Type} (x : Act S E α) (f : α → Act S E β) (g : β → Act S E γ) :
    x >>= f >>= g = x >>= fun a => f a >>= g := by
  show Act.bind (Act.bind x f) g = Act.bind x fun a => Act.bind (f a) g
  unfold Act.bind
  congr 1
  funext s
  dsimp only
  rcases x.run s with ⟨e | a, s'⟩ <;> rfl

theorem rescue_snd (x : Act S E α) (h : E → Option α) (s : S) :
    ((rescue x h).run s).2 = (x.run s).2 := by
  rcases hx : x.run s with ⟨e | a, s'⟩
  · simp only [rescue, hx]; split <;> rfl
  · simp only [rescue, hx]

end Act

/-! ## Transactions -/

/-- `rollback s s'`: `s'` with what a transaction covers as it was in `s`. -/
class Rollback (S : Type) where
  rollback : S → S → S

export Rollback (rollback)

namespace Act

variable {S E α : Type} [Rollback S]

/-- `x` in a transaction: a raise undoes the covered part of the state. -/
def atomically (x : Act S E α) : Act S E α where
  run s :=
    match x.run s with
    | (.ok a, s') => (.ok a, s')
    | (.error e, s') => (.error e, rollback s s')

theorem atomically_of_ok {x : Act S E α} {s s' : S} {a : α} (h : x.run s = (.ok a, s')) :
    (atomically x).run s = (.ok a, s') := by
  simp only [atomically, h]

theorem atomically_of_error {x : Act S E α} {s s' : S} {e : E} (h : x.run s = (.error e, s')) :
    (atomically x).run s = (.error e, rollback s s') := by
  simp only [atomically, h]

end Act

/-! ## Frames -/

/-- What a computation may do to the state. -/
structure Frame (S : Type) where
  rel : S → S → Prop
  refl : ∀ s, rel s s
  trans : ∀ {a b c}, rel a b → rel b c → rel a c

namespace Frame

variable {S E α β : Type}

/-- `x`, started in `s`, stays within `F`. -/
def Holds (F : Frame S) (x : Act S E α) (s : S) : Prop := F.rel s (x.run s).2

/-- The frame of an observation of the state: it does not change. -/
def same {β : Type} (f : S → β) : Frame S where
  rel a b := f b = f a
  refl _ := rfl
  trans h₁ h₂ := h₂.trans h₁

variable {F : Frame S}

theorem Holds.pure (a : α) (s : S) : F.Holds (Pure.pure a : Act S E α) s := F.refl s

theorem Holds.raise (e : E) (s : S) : F.Holds (Act.raise e : Act S E α) s := F.refl s

theorem Holds.bind {x : Act S E α} {f : α → Act S E β} {s : S} (hx : F.Holds x s)
    (hf : ∀ a s', x.run s = (.ok a, s') → F.Holds (f a) s') : F.Holds (x >>= f) s := by
  unfold Holds at hx ⊢
  rcases h : x.run s with ⟨e | a, s'⟩
  · rw [Act.bind_of_error h]; simpa [h] using hx
  · rw [Act.bind_of_ok h]
    exact F.trans (by simpa [h] using hx) (hf a s' h)

theorem Holds.get_bind {f : S → Act S E β} {s : S} (h : F.Holds (f s) s) :
    F.Holds (Act.get >>= f) s := h

theorem Holds.ite {c : Prop} [Decidable c] {x y : Act S E α} {s : S} (hx : c → F.Holds x s)
    (hy : ¬ c → F.Holds y s) : F.Holds (if c then x else y) s := by
  split
  · exact hx ‹_›
  · exact hy ‹_›

/-- A transaction that raises undoes part of what was done. -/
theorem Holds.atomically [Rollback S] {x : Act S E α} {s : S}
    (hroll : ∀ s', F.rel s s' → F.rel s (rollback s s')) (hx : F.Holds x s) : F.Holds (Act.atomically x) s := by
  unfold Holds at hx ⊢
  rcases h : x.run s with ⟨e | a, s'⟩ <;> rw [h] at hx
  · rw [Act.atomically_of_error h]; exact hroll s' hx
  · rw [Act.atomically_of_ok h]; exact hx

theorem Holds.rescue {x : Act S E α} {h : E → Option α} {s : S} (hx : F.Holds x s) :
    F.Holds (Act.rescue x h) s := by
  unfold Holds at hx ⊢; rw [Act.rescue_snd]; exact hx

end Frame

end Insta.Core
