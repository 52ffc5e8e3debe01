import Insta.Core.Act

/-!
# What a computation that raises leaves

`Act.OnRaise R x s`: should `x`, started in `s`, raise, `R` holds of the
state it leaves. Nothing is said of an `x` that returns. The rules follow
the way handlers are written: reads first (`OnRaise.read`), then a
transaction (`OnRaise.atomically`), then what is done after the commit
(`OnRaise.bind`).
-/
namespace Insta.Core.Act

variable {S E α β : Type} {R : S → Prop} {s : S}

def OnRaise (R : S → Prop) (x : Act S E α) (s : S) : Prop := ∀ e s', x.run s = (.error e, s') → R s'

theorem OnRaise.pure (a : α) : OnRaise R (Pure.pure a : Act S E α) s := by
  intro e s' h
  cases h

theorem OnRaise.raise {e : E} (hR : R s) : OnRaise R (Act.raise e : Act S E α) s := by
  intro e' s' h
  cases h
  exact hR

theorem OnRaise.modify (f : S → S) : OnRaise R (Act.modify f : Act S E Unit) s := by
  intro e s' h
  cases h

theorem OnRaise.bind {x : Act S E α} {f : α → Act S E β} (hx : OnRaise R x s)
    (hf : ∀ a s', x.run s = (.ok a, s') → OnRaise R (f a) s') : OnRaise R (x >>= f) s := by
  intro e s' h
  rcases hrun : x.run s with ⟨e' | a, s₁⟩
  · rw [bind_of_error hrun] at h
    cases h
    exact hx _ _ hrun
  · rw [bind_of_ok hrun] at h
    exact hf a s₁ hrun e s' h

/-- A step that only reads. -/
theorem OnRaise.read {x : Act S E α} {f : α → Act S E β} (hx : (x.run s).2 = s) (hR : R s)
    (hf : ∀ a, x.run s = (.ok a, s) → OnRaise R (f a) s) : OnRaise R (x >>= f) s := by
  refine OnRaise.bind (fun e s' h => ?_) fun a s' h => ?_ <;> rw [h] at hx <;> cases hx
  · exact hR
  · exact hf a h

theorem OnRaise.get_bind {f : S → Act S E β} (h : OnRaise R (f s) s) : OnRaise R (Act.get >>= f) s := h

theorem OnRaise.ite {c : Prop} [Decidable c] {x y : Act S E α} (hx : c → OnRaise R x s)
    (hy : ¬ c → OnRaise R y s) : OnRaise R (if c then x else y) s := by
  split
  · exact hx ‹_›
  · exact hy ‹_›

/-- A transaction that raises leaves what its rollback restores. -/
theorem OnRaise.atomically [Rollback S] {x : Act S E α} (hR : ∀ s', R (rollback s s')) :
    OnRaise R (Act.atomically x) s := by
  intro e s' h
  rcases hrun : x.run s with ⟨e' | a, s₁⟩
  · rw [atomically_of_error hrun] at h
    cases h
    exact hR s₁
  · rw [atomically_of_ok hrun] at h
    cases h

end Insta.Core.Act
