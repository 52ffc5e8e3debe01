import Insta.Core.Lts

/-!
# Interleaved threads over a shared state

Each thread is a value that says where it is in its program; a step of the
system picks a thread and lets it do its next atomic step on the shared
state.

* `interleave step`: the system, labelled by the thread that moves.
* `fire_cases`: what a step is.
* `countP_threads`: how a step changes the number of threads in a phase;
  `mem_set_of_single`: a phase that one thread at a time is in.
* `Alone`: a thread that runs by itself to its end, which is a run of the
  system (`Alone.run`).
-/
namespace Insta.Core

structure Sys (S T : Type) where
  shared : S
  threads : List T
  deriving DecidableEq

variable {S T : Type}

/-- The next step of thread `i`; `step` says what a thread does, `none` when
it is finished. -/
def fire (step : S → T → Option (S × T)) (s : Sys S T) (i : Nat) : Option (Sys S T) :=
  match s.threads[i]? with
  | none => none
  | some t => (step s.shared t).map fun p => ⟨p.1, s.threads.set i p.2⟩

def interleave (init : Sys S T → Prop) (step : S → T → Option (S × T)) : LTS (Sys S T) Nat :=
  LTS.ofFn init (fire step)

theorem fire_cases {step : S → T → Option (S × T)} {s s' : Sys S T} {i : Nat}
    (h : fire step s i = some s') : ∃ t x t', s.threads[i]? = some t ∧
      step s.shared t = some (x, t') ∧ s' = ⟨x, s.threads.set i t'⟩ := by
  unfold fire at h
  split at h
  · cases h
  · rename_i t ht
    obtain ⟨⟨x, t'⟩, hp, rfl⟩ := Option.map_eq_some_iff.1 h
    exact ⟨t, x, t', ht, hp, rfl⟩

/-- A step moves one thread from its phase to the next. -/
theorem countP_threads {l : List T} {i : Nat} {t : T} (h : l[i]? = some t) (t' : T) (p : T → Bool) :
    (l.set i t').countP p + (p t).toNat = l.countP p + (p t').toNat := by
  obtain ⟨hi, rfl⟩ := List.getElem?_eq_some_iff.1 h
  rw [List.countP_set hi]
  cases hp : p l[i] with
  | false => cases p t' <;> simp
  | true =>
    have hpos : 0 < l.countP p := List.countP_pos_iff.2 ⟨_, List.getElem_mem hi, hp⟩
    cases p t' <;> simp <;> omega

/-- When at most one thread is in a phase and that one moves, no other is in
it. -/
theorem mem_set_of_single {l : List T} {i : Nat} {t t' x : T} {p : T → Bool} (h : l[i]? = some t) (hp : p t = true)
    (hone : l.countP p ≤ 1) (hx : x ∈ l.set i t') : x = t' ∨ x ∈ l ∧ p x = false := by
  induction l generalizing i with
  | nil => cases hx
  | cons a l ih =>
    rw [List.countP_cons] at hone
    cases i with
    | zero =>
      cases h
      rw [if_pos hp] at hone
      rcases List.mem_cons.1 hx with hx | hx
      · exact .inl hx
      · have hnone := List.countP_eq_zero.1 (show l.countP p = 0 by omega) x hx
        exact .inr ⟨List.mem_cons_of_mem _ hx, by simpa using hnone⟩
    | succ i =>
      have hpos : 0 < l.countP p := List.countP_pos_iff.2 ⟨t, List.mem_of_getElem? h, hp⟩
      rcases List.mem_cons.1 hx with rfl | hx
      · refine .inr ⟨List.mem_cons_self, ?_⟩
        by_contra ha
        rw [Bool.not_eq_false] at ha
        rw [if_pos ha] at hone
        omega
      · rcases ih h (by omega) hx with hx | ⟨hx, hpx⟩
        · exact .inl hx
        · exact .inr ⟨List.mem_cons_of_mem _ hx, hpx⟩

/-- The thread `t`, by itself from `s` on, ends as `fin` and leaves `s'`. -/
inductive Alone (step : S → T → Option (S × T)) (fin : T) : S → T → S → Prop
  | done (s : S) : Alone step fin s fin s
  | step {s s₁ s' : S} {t t₁ : T} (h : step s t = some (s₁, t₁)) (rest : Alone step fin s₁ t₁ s') :
    Alone step fin s t s'

theorem Alone.run {init : Sys S T → Prop} {step : S → T → Option (S × T)} {fin t : T} {s s' : S}
    (h : Alone step fin s t s') : ∃ ls, (interleave init step).Run ⟨s, [t]⟩ ls ⟨s', [fin]⟩ := by
  induction h with
  | done s => exact ⟨[], .nil _⟩
  | step h _ ih =>
    obtain ⟨ls, hrun⟩ := ih
    refine ⟨0 :: ls, .cons ?_ hrun⟩
    show fire step _ 0 = _
    simp [fire, h]

end Insta.Core
