import Mathlib.Logic.Basic
import Mathlib.Data.List.Basic
import Mathlib.Logic.Function.Iterate

/-!
# Labelled transition systems and their runs

The systems of this development are runs of requests, webhook deliveries or
thread steps. This module has what all of them share and names none of them.

* `LTS.Run`, `LTS.Reachable`: finite runs with their labels, and the states
  some run from an initial state ends in.
* `LTS.Inductive.reachable`: an invariant that holds initially and is kept
  by every step holds in every reachable state.
* `LTS.ofFn`: the system of a step function; its runs are the iterations of
  the function (`LTS.ofFn_run_iff`).
* `LTS.guard`: the runs all of whose steps meet a condition on the label and
  the state before the step. A guarantee that needs such a condition is
  stated about `(M.guard G)`.
* `LTS.Run.exists_step`: a property that holds at the end of a run and not
  at its start was established by some step of the run (`LTS.StepOf`).
* `LTS.states`: the states a step function passes through.
* `LTS.Run.simulates`: from a simulation of steps to one of runs.
* `LTS.run_keeps_iff`: from "one step keeps `P` iff it meets `G`" to runs.
* `LTS.Terminates`: no infinite run, which a decreasing measure gives
  (`LTS.terminates_of_measure`) and a set of states that always has a step
  inside it refutes (`LTS.not_terminates_of_invariant`).
-/
namespace Insta.Core

structure LTS (S L : Type) where
  init : S → Prop
  step : S → L → S → Prop

namespace LTS

variable {S L : Type}

/-- The system of a partial step function. -/
def ofFn (init : S → Prop) (f : S → L → Option S) : LTS S L where
  init := init
  step s l s' := f s l = some s'

inductive Run (M : LTS S L) : S → List L → S → Prop
  | nil (s : S) : Run M s [] s
  | cons {s s' s'' : S} {l : L} {ls : List L} : M.step s l s' → Run M s' ls s'' → Run M s (l :: ls) s''

def Reachable (M : LTS S L) (s : S) : Prop := ∃ s₀ ls, M.init s₀ ∧ M.Run s₀ ls s

structure Inductive (M : LTS S L) (I : S → Prop) : Prop where
  init : ∀ s, M.init s → I s
  step : ∀ s l s', I s → M.step s l s' → I s'

theorem Run.append {M : LTS S L} {a b c : S} {l₁ l₂ : List L} (h₁ : M.Run a l₁ b)
    (h₂ : M.Run b l₂ c) : M.Run a (l₁ ++ l₂) c := by
  induction h₁ with
  | nil => exact h₂
  | cons hs _ ih => exact .cons hs (ih h₂)

/-- An invariant of every step is kept along a run. -/
theorem Run.keeps {M : LTS S L} {I : S → Prop} (hstep : ∀ s l s', I s → M.step s l s' → I s')
    {a b : S} {ls : List L} (h : M.Run a ls b) (ha : I a) : I b := by
  induction h with
  | nil => exact ha
  | cons hs _ ih => exact ih (hstep _ _ _ ha hs)

theorem Inductive.reachable {M : LTS S L} {I : S → Prop} (h : M.Inductive I) (s : S)
    (hr : M.Reachable s) : I s := by
  obtain ⟨s₀, ls, h₀, hrun⟩ := hr
  exact hrun.keeps h.step (h.init s₀ h₀)

/-- The runs of a step function are its iterations. -/
theorem ofFn_run_iff {init : S → Prop} {f : S → L → Option S} {ls : List L} {s s' : S} :
    (ofFn init f).Run s ls s' ↔ ls.foldlM f s = some s' := by
  induction ls generalizing s with
  | nil =>
    constructor
    · intro h; cases h; rfl
    · intro h; cases h; exact .nil _
  | cons l ls ih =>
    rw [List.foldlM_cons, Option.bind_eq_bind, Option.bind_eq_some_iff]
    constructor
    · intro h
      cases h with
      | cons hs hr => exact ⟨_, hs, ih.1 hr⟩
    · rintro ⟨s₁, hs, hr⟩
      exact .cons hs (ih.2 hr)

/-! ## Runs whose steps meet a condition -/

/-- `M` restricted to the steps that meet `G` in the state before them. -/
def guard (M : LTS S L) (G : S → L → Prop) : LTS S L where
  init := M.init
  step s l s' := M.step s l s' ∧ G s l

theorem Run.of_guard {M : LTS S L} {G : S → L → Prop} {a b : S} {ls : List L}
    (h : (M.guard G).Run a ls b) : M.Run a ls b := by
  induction h with
  | nil => exact .nil _
  | cons hs _ ih => exact .cons hs.1 ih

/-- The guarded runs of a step function are the iterations of the guarded
function. -/
theorem run_guard_of_foldlM {init : S → Prop} {f : S → L → Option S} {g : S → L → Bool} {ls : List L} {s s' : S}
    (h : ls.foldlM (fun a l => if g a l then f a l else none) s = some s') :
    ((ofFn init f).guard fun a l => g a l = true).Run s ls s' := by
  induction ls generalizing s with
  | nil => cases h; exact .nil _
  | cons l ls ih =>
    rw [List.foldlM_cons, Option.bind_eq_bind, Option.bind_eq_some_iff] at h
    obtain ⟨s₁, hs, hr⟩ := h
    rw [Option.ite_none_right_eq_some] at hs
    exact .cons ⟨hs.2, hs.1⟩ (ih hr)

/-! ## Which step established a property -/

/-- `a -l-> b` is one of the steps of a run from `s₀` over `ls` to `s`. -/
def StepOf (M : LTS S L) (s₀ : S) (ls : List L) (s : S) (a : S) (l : L) (b : S) : Prop :=
  ∃ l₁ l₂, ls = l₁ ++ l :: l₂ ∧ M.Run s₀ l₁ a ∧ M.step a l b ∧ M.Run b l₂ s

theorem StepOf.cons {M : LTS S L} {s₀ s₁ s a b : S} {ls : List L} {k l : L}
    (hs : M.step s₀ k s₁) (h : M.StepOf s₁ ls s a l b) : M.StepOf s₀ (k :: ls) s a l b := by
  obtain ⟨l₁, l₂, rfl, hr, hst, hr'⟩ := h
  exact ⟨k :: l₁, l₂, rfl, .cons hs hr, hst, hr'⟩

/-- A property of the last state that the first one lacks appears in a step. -/
theorem Run.exists_step {M : LTS S L} {P : S → Prop} {s₀ s : S} {ls : List L}
    (h : M.Run s₀ ls s) (h₀ : ¬ P s₀) (hs : P s) :
    ∃ a l b, M.StepOf s₀ ls s a l b ∧ ¬ P a ∧ P b := by
  induction h with
  | nil => exact absurd hs h₀
  | @cons s₀ s₁ s l ls hst hrun ih =>
    by_cases h₁ : P s₁
    · exact ⟨s₀, l, s₁, ⟨[], ls, rfl, .nil _, hst, hrun⟩, h₀, h₁⟩
    · obtain ⟨a, k, b, hof, ha, hb⟩ := ih h₁ hs
      exact ⟨a, k, b, hof.cons hst, ha, hb⟩

/-- A step of a run is a step of a longer one. -/
theorem StepOf.extend {M : LTS S L} {s₀ s s' a b : S} {ls ls' : List L} {l : L} (h : M.StepOf s₀ ls s a l b)
    (hr : M.Run s ls' s') : M.StepOf s₀ (ls ++ ls') s' a l b := by
  obtain ⟨l₁, l₂, rfl, hr₁, hst, hr₂⟩ := h
  exact ⟨l₁, l₂ ++ ls', by simp, hr₁, hst, hr₂.append hr⟩

theorem StepOf.head {M : LTS S L} {s₀ s₁ s : S} {ls : List L} {l : L} (hs : M.step s₀ l s₁)
    (h : M.Run s₁ ls s) : M.StepOf s₀ (l :: ls) s s₀ l s₁ :=
  ⟨[], ls, rfl, .nil _, hs, h⟩

theorem StepOf.of_cons {M : LTS S L} {s₀ s a b : S} {ls : List L} {k l : L}
    (h : M.StepOf s₀ (k :: ls) s a l b) :
    (a = s₀ ∧ l = k) ∨ ∃ s₁, M.step s₀ k s₁ ∧ M.StepOf s₁ ls s a l b := by
  obtain ⟨l₁, l₂, hls, hr, hst, hr'⟩ := h
  cases hr with
  | nil => cases hls; exact .inl ⟨rfl, rfl⟩
  | cons hs hr =>
    cases hls
    exact .inr ⟨_, hs, _, l₂, rfl, hr, hst, hr'⟩

theorem StepOf.run {M : LTS S L} {s₀ s a b : S} {ls : List L} {l : L} (h : M.StepOf s₀ ls s a l b) :
    M.Run s₀ ls s := by
  obtain ⟨l₁, l₂, rfl, hr, hst, hr'⟩ := h
  exact hr.append (.cons hst hr')

theorem StepOf.step {M : LTS S L} {s₀ s a b : S} {ls : List L} {l : L} (h : M.StepOf s₀ ls s a l b) :
    M.step a l b := by
  obtain ⟨-, -, -, -, hst, -⟩ := h
  exact hst

/-- The states on the way of a step function, as far as it goes. -/
def states (f : S → L → Option S) : S → List L → List S
  | s, [] => [s]
  | s, l :: ls => s :: (f s l).elim [] fun s' => states f s' ls

theorem Run.mem_states {init : S → Prop} {f : S → L → Option S} {s₀ s : S} {ls : List L}
    (h : (ofFn init f).Run s₀ ls s) : s ∈ states f s₀ ls := by
  induction h with
  | nil => exact List.mem_cons_self
  | @cons s₀ s₁ s l ls hst _ ih =>
    refine List.mem_cons_of_mem _ ?_
    rw [show f s₀ l = some s₁ from hst]
    exact ih

theorem mem_states_append {f : S → L → Option S} {s₀ s : S} {ls : List L} (h : s ∈ states f s₀ ls)
    (ls' : List L) : s ∈ states f s₀ (ls ++ ls') := by
  induction ls generalizing s₀ with
  | nil =>
    rw [List.mem_singleton.1 h]
    cases ls' <;> exact List.mem_cons_self
  | cons l ls ih =>
    rcases List.mem_cons.1 h with rfl | h
    · exact List.mem_cons_self
    · refine List.mem_cons_of_mem _ ?_
      cases hf : f s₀ l with
      | none =>
        rw [hf] at h
        cases h
      | some s₁ =>
        rw [hf] at h
        exact ih h

/-- Simulation: where every step is matched by a run of another system, with
labels as `Q` allows them for the step, so is every run. -/
theorem Run.simulates {T K : Type} {M : LTS S L} {N : LTS T K} {R : S → T → Prop} {Q : S → L → K → Prop}
    (hstep : ∀ a l b c, R a c → M.step a l b → ∃ ks d, N.Run c ks d ∧ R b d ∧ ∀ k ∈ ks, Q a l k)
    {s₀ s : S} {ls : List L} (h : M.Run s₀ ls s) {c : T} (hc : R s₀ c) :
    ∃ ks d, N.Run c ks d ∧ R s d ∧ ∀ k ∈ ks, ∃ a l b, M.StepOf s₀ ls s a l b ∧ Q a l k := by
  induction h generalizing c with
  | nil => exact ⟨[], c, .nil c, hc, fun k hk => absurd hk List.not_mem_nil⟩
  | @cons s₀ s₁ s l ls hst hrun ih =>
    obtain ⟨ks₁, d₁, hr₁, hd₁, hq₁⟩ := hstep _ _ _ _ hc hst
    obtain ⟨ks, d, hr, hd, hq⟩ := ih hd₁
    refine ⟨ks₁ ++ ks, d, hr₁.append hr, hd, fun k hk => ?_⟩
    rcases List.mem_append.1 hk with hk | hk
    · exact ⟨_, _, _, .head hst hrun, hq₁ k hk⟩
    · obtain ⟨a, l', b, hof, hab⟩ := hq k hk
      exact ⟨a, l', b, hof.cons hst, hab⟩

/-- Where a step from a state with `P` keeps `P` exactly when it meets `G`,
a run keeps `P` exactly when all its steps meet `G`. -/
theorem run_keeps_iff {M : LTS S L} {P : S → Prop} {G : S → L → Prop}
    (hiff : ∀ a l b, P a → M.step a l b → (P b ↔ G a l)) {ls : List L} {s₀ : S} (h₀ : P s₀) (s : S) :
    (∀ a l b, M.StepOf s₀ ls s a l b → P b) ↔ ∀ a l b, M.StepOf s₀ ls s a l b → G a l := by
  induction ls generalizing s₀ with
  | nil =>
    have hno : ∀ a l b, ¬ M.StepOf s₀ [] s a l b := by
      rintro a l b ⟨l₁, l₂, hls, -⟩
      simp at hls
    exact ⟨fun _ a l b h => absurd h (hno a l b), fun _ a l b h => absurd h (hno a l b)⟩
  | cons k ls ih =>
    constructor
    · intro hP a l b h
      rcases h.of_cons with ⟨rfl, rfl⟩ | ⟨s₁, hs, h'⟩
      · exact (hiff _ _ _ h₀ h.step).1 (hP _ _ _ h)
      · have h₁ : P s₁ := hP _ _ _ (.head hs h'.run)
        exact (ih h₁).1 (fun a l b hab => hP a l b (hab.cons hs)) a l b h'
    · intro hG a l b h
      rcases h.of_cons with ⟨rfl, rfl⟩ | ⟨s₁, hs, h'⟩
      · exact (hiff _ _ _ h₀ h.step).2 (hG _ _ _ h)
      · have h₁ : P s₁ := (hiff _ _ _ h₀ hs).2 (hG _ _ _ (.head hs h'.run))
        exact (ih h₁).2 (fun a l b hab => hG a l b (hab.cons hs)) a l b h'

/-- The same with an invariant `I` of the steps to use. -/
theorem run_keeps_iff_of_invariant {M : LTS S L} {I P : S → Prop} {G : S → L → Prop}
    (hI : ∀ a l b, I a → M.step a l b → I b) (hiff : ∀ a l b, I a → P a → M.step a l b → (P b ↔ G a l))
    {ls : List L} {s₀ : S} (hi : I s₀) (h₀ : P s₀) (s : S) :
    (∀ a l b, M.StepOf s₀ ls s a l b → P b) ↔ ∀ a l b, M.StepOf s₀ ls s a l b → G a l := by
  have hreached : ∀ a l b, M.StepOf s₀ ls s a l b → I b := by
    rintro a l b ⟨l₁, l₂, -, hr, hst, -⟩
    exact hI a l b (hr.keeps hI hi) hst
  rw [← run_keeps_iff (P := fun a => I a ∧ P a) (fun a l b h hs =>
    ⟨fun hb => (hiff a l b h.1 h.2 hs).1 hb.2, fun hg => ⟨hI a l b h.1 hs, (hiff a l b h.1 h.2 hs).2 hg⟩⟩) ⟨hi, h₀⟩ s]
  exact ⟨fun h a l b hs => ⟨hreached a l b hs, h a l b hs⟩, fun h a l b hs => (h a l b hs).2⟩

/-! ## Termination -/

/-- No infinite run starts in `s`. -/
def Terminates (M : LTS S L) (s : S) : Prop :=
  ¬ ∃ σ : Nat → S, σ 0 = s ∧ ∀ n, ∃ l, M.step (σ n) l (σ (n + 1))

/-- A measure that every step from a state satisfying `I` decreases, `I`
being kept, bounds every run from such a state. -/
theorem terminates_of_measure {M : LTS S L} {I : S → Prop} {α : Type} [WellFoundedRelation α]
    (μ : S → α)
    (hstep : ∀ s l s', I s → M.step s l s' → I s' ∧ WellFoundedRelation.rel (μ s') (μ s))
    {s : S} (hs : I s) : M.Terminates s := by
  rintro ⟨σ, h0, hσ⟩
  have hI : ∀ n, I (σ n) := by
    intro n
    induction n with
    | zero => rw [h0]; exact hs
    | succ n ih => obtain ⟨l, hl⟩ := hσ n; exact (hstep _ _ _ ih hl).1
  have hdec : ∀ n, WellFoundedRelation.rel (μ (σ (n + 1))) (μ (σ n)) := by
    intro n; obtain ⟨l, hl⟩ := hσ n; exact (hstep _ _ _ (hI n) hl).2
  -- the measures along `σ` would descend for ever
  have hacc : ∀ a, ∀ n, μ (σ n) = a → False := by
    intro a
    induction a using WellFounded.induction (WellFoundedRelation.wf (α := α)) with
    | h a ih => intro n hn; exact ih _ (hn ▸ hdec n) (n + 1) rfl
  exact hacc _ 0 rfl

/-- A set of states in which every state has a step to another one of the
set gives an infinite run. -/
theorem not_terminates_of_invariant {M : LTS S L} {I : S → Prop}
    (hstep : ∀ s, I s → ∃ l s', M.step s l s' ∧ I s') {s : S} (hs : I s) : ¬ M.Terminates s := by
  intro h
  have hstep' : ∀ s, I s → ∃ s', (∃ l, M.step s l s') ∧ I s' := by
    intro s hs
    obtain ⟨l, s', hst, hI⟩ := hstep s hs
    exact ⟨s', ⟨l, hst⟩, hI⟩
  have : Nonempty S := ⟨s⟩
  choose! next hnext using hstep'
  have hI : ∀ n, I (next^[n] s) := by
    intro n
    induction n with
    | zero => exact hs
    | succ n ih => rw [Function.iterate_succ_apply']; exact (hnext _ ih).2
  refine h ⟨fun n => next^[n] s, rfl, fun n => ?_⟩
  obtain ⟨l, hl⟩ := (hnext _ (hI n)).1
  exact ⟨l, by simpa only [Function.iterate_succ_apply'] using hl⟩

end LTS

end Insta.Core
