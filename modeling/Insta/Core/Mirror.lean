import Mathlib.Logic.Function.Basic
import Mathlib.Data.List.Basic

/-!
# A copy kept up to date by notices

A source maps keys to values. Every change of it logs a notice, which names
the key and says whether the key was removed. Notices reach the receiver in
any order, each any number of times, at any time after the change. To a
removal the receiver drops the key from its copy; to any other notice it
fetches what the source holds by then, and does nothing if that is nothing.

* `Tracked`: where the copy differs from the source, a notice that will
  repair it has not arrived yet, or the source has the key and the last notice
  that arrived about it was a removal. Every step keeps this (`Tracked.step`).
* `Tracked.settled_iff`: once every notice has arrived, the copy is the source
  iff no key of the source had a removal as its last arrival.
* `Final`: a removed key has not come back. Then the copy is the source
  (`Tracked.settled`).
-/
namespace Insta.Core.Mirror

structure Notice (K : Type) where
  key : K
  removed : Bool
  deriving DecidableEq

/-- Source, copy, the notices in the order of the changes, each with whether
it has arrived, and all arrivals, the last one first. -/
structure State (K V : Type) where
  source : K → Option V
  copy : K → Option V
  log : List (Notice K × Bool)
  arrived : List (Notice K)

variable {K V : Type}

/-- Notices other than the one that arrives stay as they are. -/
theorem mem_arrived {log : List (Notice K × Bool)} {i : Nat} {n m : Notice K} {d b : Bool}
    (hn : log[i]? = some (n, d)) (hne : m ≠ n) : (m, b) ∈ log.set i (n, true) ↔ (m, b) ∈ log := by
  constructor
  · intro h
    rcases List.mem_or_eq_of_mem_set h with h | h
    · exact h
    · cases h
      exact absurd rfl hne
  · intro h
    obtain ⟨j, hj⟩ := List.mem_iff_getElem?.1 h
    have hij : i ≠ j := by
      rintro rfl
      cases hn.symm.trans hj
      exact hne rfl
    exact List.mem_iff_getElem?.2 ⟨j, (List.getElem?_set_ne hij).trans hj⟩

theorem mem_logged {log : List (Notice K × Bool)} {n m : Notice K} {b : Bool} (hne : m.key ≠ n.key) :
    (m, b) ∈ log ++ [(n, false)] ↔ (m, b) ∈ log := by
  rw [List.mem_append, List.mem_singleton, or_iff_left]
  intro he
  cases he
  exact hne rfl

variable [DecidableEq K]

/-- The last notice about `k` to arrive was a removal. -/
def State.droppedLast (s : State K V) (k : K) : Bool := (s.arrived.find? (·.key == k)).any (·.removed)

/-- What is out of date is about to be repaired, or was dropped last. -/
structure Tracked (s : State K V) : Prop where
  current : ∀ k v, s.source k = some v →
    s.copy k = (if s.droppedLast k then none else some v) ∨ (⟨k, false⟩, false) ∈ s.log
  gone : ∀ k, s.source k = none → s.copy k = none ∨ (⟨k, true⟩, false) ∈ s.log
  logged : ∀ n ∈ s.arrived, ∃ d, (n, d) ∈ s.log

/-- Of every removed key the source has nothing. -/
def Final (s : State K V) : Prop := ∀ k d, (⟨k, true⟩, d) ∈ s.log → s.source k = none

theorem tracked_of_same {s : State K V} (hsame : s.copy = s.source) (harrived : s.arrived = []) : Tracked s where
  current k v h := by
    rw [hsame, h, State.droppedLast, harrived]
    exact .inl rfl
  gone _ h := .inl (hsame ▸ h)
  logged n hn := by rw [harrived] at hn; cases hn

/-- With every notice arrived, the copy lacks what was dropped last. -/
theorem Tracked.copy_eq {s : State K V} (h : Tracked s) (hall : ∀ e ∈ s.log, e.2 = true) (k : K) :
    s.copy k = if s.droppedLast k then none else s.source k := by
  cases hk : s.source k with
  | none =>
    rcases h.gone k hk with hc | hn
    · rw [hc, ite_self]
    · cases hall _ hn
  | some v =>
    rcases h.current k v hk with hc | hn
    · exact hc
    · cases hall _ hn

theorem Tracked.settled_iff {s : State K V} (h : Tracked s) (hall : ∀ e ∈ s.log, e.2 = true) :
    s.copy = s.source ↔ ∀ k, s.source k ≠ none → s.droppedLast k = false := by
  constructor
  · intro hsame k hk
    have hcopy := h.copy_eq hall k
    rw [hsame] at hcopy
    by_contra hdropped
    rw [Bool.not_eq_false] at hdropped
    rw [hdropped, if_pos rfl] at hcopy
    exact hk hcopy
  · intro hlast
    funext k
    rw [h.copy_eq hall k]
    by_cases hk : s.source k = none
    · rw [hk, ite_self]
    · rw [hlast k hk]
      rfl

theorem Tracked.settled {s : State K V} (h : Tracked s) (hfinal : Final s) (hall : ∀ e ∈ s.log, e.2 = true) :
    s.copy = s.source := by
  refine (h.settled_iff hall).2 fun k hk => ?_
  by_contra hdropped
  rw [Bool.not_eq_false, State.droppedLast, Option.any_eq_true] at hdropped
  obtain ⟨⟨j, removed⟩, hlast, hremoved⟩ := hdropped
  obtain ⟨d, hlog⟩ := h.logged _ (List.mem_of_find?_eq_some hlast)
  have hkey : j = k := by simpa using List.find?_some hlast
  subst hkey
  obtain rfl : removed = true := hremoved
  exact hk (hfinal j d hlog)

/-- A step about the key `k` has to be looked at for `k` only. -/
theorem Tracked.of_key {s s' : State K V} (k : K) (h : Tracked s)
    (hsource : ∀ j, j ≠ k → s'.source j = s.source j) (hcopy : ∀ j, j ≠ k → s'.copy j = s.copy j)
    (hlog : ∀ j, j ≠ k → ∀ r d, (⟨j, r⟩, d) ∈ s'.log ↔ (⟨j, r⟩, d) ∈ s.log)
    (hlast : ∀ j, j ≠ k → s'.droppedLast j = s.droppedLast j)
    (hcurrent : ∀ v, s'.source k = some v →
      s'.copy k = (if s'.droppedLast k then none else some v) ∨ (⟨k, false⟩, false) ∈ s'.log)
    (hgone : s'.source k = none → s'.copy k = none ∨ (⟨k, true⟩, false) ∈ s'.log)
    (hlogged : ∀ n ∈ s'.arrived, ∃ d, (n, d) ∈ s'.log) : Tracked s' := by
  refine ⟨fun j v hj => ?_, fun j hj => ?_, hlogged⟩ <;> by_cases hjk : j = k
  · subst hjk
    exact hcurrent v hj
  · rw [hsource j hjk] at hj
    rw [hcopy j hjk, hlog j hjk, hlast j hjk]
    exact h.current j v hj
  · subst hjk
    exact hgone hj
  · rw [hsource j hjk] at hj
    rw [hcopy j hjk, hlog j hjk]
    exact h.gone j hj

/-! ## Steps -/

/-- The copy after a notice arrived. -/
def receive (source copy : K → Option V) (n : Notice K) : K → Option V :=
  if n.removed then Function.update copy n.key none
  else (source n.key).elim copy fun v => Function.update copy n.key (some v)

inductive Step (s s' : State K V) : Prop
  | write (k : K) (v : V) (hsource : s'.source = Function.update s.source k (some v)) (hcopy : s'.copy = s.copy)
      (hlog : s'.log = s.log ++ [(⟨k, false⟩, false)]) (harrived : s'.arrived = s.arrived)
  | remove (k : K) (hsource : s'.source = Function.update s.source k none) (hcopy : s'.copy = s.copy)
      (hlog : s'.log = s.log ++ [(⟨k, true⟩, false)]) (harrived : s'.arrived = s.arrived)
  | arrive {i : Nat} {n : Notice K} {d : Bool} (hn : s.log[i]? = some (n, d)) (hsource : s'.source = s.source)
      (hcopy : s'.copy = receive s.source s.copy n) (hlog : s'.log = s.log.set i (n, true))
      (harrived : s'.arrived = n :: s.arrived)

theorem droppedLast_congr {s s' : State K V} (h : s'.arrived = s.arrived) (k : K) :
    s'.droppedLast k = s.droppedLast k := by
  rw [State.droppedLast, h, State.droppedLast]

/-- A change of the source logs its notice. -/
theorem Tracked.change {s s' : State K V} {k : K} {v : Option V} (h : Tracked s)
    (hsource : s'.source = Function.update s.source k v) (hcopy : s'.copy = s.copy)
    (hlog : s'.log = s.log ++ [(⟨k, v.isNone⟩, false)]) (harrived : s'.arrived = s.arrived) : Tracked s' := by
  have hk : s'.source k = v := by rw [hsource, Function.update_self]
  have hnew : (⟨k, v.isNone⟩, false) ∈ s'.log := by
    rw [hlog]
    exact List.mem_append_right _ (List.mem_singleton.2 rfl)
  refine h.of_key k (fun j hjk => ?_) (fun j _ => by rw [hcopy]) (fun j hjk r d => ?_)
    (fun j _ => droppedLast_congr harrived j) (fun x hx => .inr ?_) (fun hx => .inr ?_) (fun n hn => ?_)
  · rw [hsource, Function.update_of_ne hjk]
  · rw [hlog, mem_logged hjk]
  · cases hk.symm.trans hx
    exact hnew
  · cases hk.symm.trans hx
    exact hnew
  · rw [harrived] at hn
    obtain ⟨d, hd⟩ := h.logged n hn
    exact ⟨d, by rw [hlog]; exact List.mem_append_left _ hd⟩

theorem receive_of_ne {source copy : K → Option V} {n : Notice K} {j : K} (hj : j ≠ n.key) :
    receive source copy n j = copy j := by
  unfold receive
  split
  · exact Function.update_of_ne hj ..
  · cases source n.key with
    | none => rfl
    | some v => exact Function.update_of_ne hj ..

/-- The arrivals about `j` after `n` arrived. -/
theorem droppedLast_arrive {s s' : State K V} {n : Notice K} (h : s'.arrived = n :: s.arrived) (j : K) :
    s'.droppedLast j = if n.key = j then n.removed else s.droppedLast j := by
  unfold State.droppedLast
  rw [h, List.find?_cons]
  by_cases hj : n.key = j
  · rw [beq_iff_eq.2 hj, if_pos hj]
    rfl
  · rw [beq_eq_false_iff_ne.2 hj, if_neg hj]

theorem Tracked.arrive {s s' : State K V} {i : Nat} {n : Notice K} {d : Bool} (h : Tracked s)
    (hn : s.log[i]? = some (n, d)) (hsource : s'.source = s.source)
    (hcopy : s'.copy = receive s.source s.copy n) (hlog : s'.log = s.log.set i (n, true))
    (harrived : s'.arrived = n :: s.arrived) : Tracked s' := by
  have hother : ∀ {m : Notice K} {b : Bool}, m ≠ n → ((m, b) ∈ s'.log ↔ (m, b) ∈ s.log) := by
    intro m b hne
    rw [hlog]
    exact mem_arrived hn hne
  have hin : (n, true) ∈ s'.log := by
    rw [hlog]
    exact List.mem_set (List.getElem?_eq_some_iff.1 hn).1 _
  refine h.of_key n.key (fun j _ => by rw [hsource]) (fun j hj => by rw [hcopy, receive_of_ne hj])
    (fun j hj r b => hother fun he => hj (congrArg Notice.key he))
    (fun j hj => (droppedLast_arrive harrived j).trans (if_neg (Ne.symm hj))) (fun v hk => ?_) (fun hk => ?_)
    (fun m hm => ?_)
  · -- the key is fetched, or dropped although the source has it
    left
    rw [hsource] at hk
    rw [hcopy, droppedLast_arrive harrived, if_pos rfl]
    unfold receive
    split
    · exact Function.update_self ..
    · rw [hk]
      exact Function.update_self ..
  · rw [hsource] at hk
    obtain ⟨k, _ | _⟩ := n
    · have hsame : s'.copy k = s.copy k := by simp [hcopy, receive, show s.source k = none from hk]
      rw [hsame, hother (fun he => by cases he)]
      exact h.gone k hk
    · left
      simp [hcopy, receive]
  · by_cases hmn : m = n
    · exact ⟨true, hmn ▸ hin⟩
    · rw [harrived] at hm
      obtain ⟨b, hb⟩ := h.logged m ((List.mem_cons.1 hm).resolve_left hmn)
      exact ⟨b, (hother hmn).2 hb⟩

theorem Tracked.step {s s' : State K V} (h : Tracked s) (hs : Step s s') : Tracked s' := by
  cases hs with
  | write k v hsource hcopy hlog harrived => exact h.change hsource hcopy hlog harrived
  | remove k hsource hcopy hlog harrived => exact h.change hsource hcopy hlog harrived
  | arrive hn hsource hcopy hlog harrived => exact h.arrive hn hsource hcopy hlog harrived

/-! ## Removed for good -/

/-- A key that is written is there already, or no notice was about it. -/
theorem Final.write {s s' : State K V} {k : K} {v : V} (h : Final s)
    (hnew : s.source k ≠ none ∨ ∀ e ∈ s.log, e.1.key ≠ k) (hsource : s'.source = Function.update s.source k (some v))
    (hlog : s'.log = s.log ++ [(⟨k, false⟩, false)]) : Final s' := by
  intro j d hj
  rw [hlog] at hj
  rcases List.mem_append.1 hj with hold | hold
  · have hjk : j ≠ k := by
      rintro rfl
      rcases hnew with hsome | hnone
      · exact hsome (h j d hold)
      · exact hnone _ hold rfl
    rw [hsource, Function.update_of_ne hjk]
    exact h j d hold
  · cases List.mem_singleton.1 hold

theorem Final.remove {s s' : State K V} {k : K} (h : Final s) (hsource : s'.source = Function.update s.source k none)
    (hlog : s'.log = s.log ++ [(⟨k, true⟩, false)]) : Final s' := by
  intro j d hj
  rw [hsource]
  by_cases hjk : j = k
  · rw [hjk, Function.update_self]
  · rw [hlog, mem_logged hjk] at hj
    rw [Function.update_of_ne hjk]
    exact h j d hj

omit [DecidableEq K] in
theorem Final.arrive {s s' : State K V} {i : Nat} {n : Notice K} {d : Bool} (h : Final s)
    (hn : s.log[i]? = some (n, d)) (hsource : s'.source = s.source) (hlog : s'.log = s.log.set i (n, true)) :
    Final s' := by
  intro j b hj
  rw [hsource]
  rw [hlog] at hj
  rcases List.mem_or_eq_of_mem_set hj with hj | hj
  · exact h j b hj
  · cases hj
    exact h j d (List.mem_of_getElem? hn)

end Insta.Core.Mirror
