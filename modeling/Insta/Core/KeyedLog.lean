import Mathlib.Data.List.Basic
import Mathlib.Data.List.Perm.Basic

/-!
# Flags under keys, overwritten as events arrive

Rows are pairs of a key and a flag. An event sets the flag of the first row
with its key, or is appended when no row has it. The order of arrival then
decides two things: the flag that events of one key leave behind, and the
order of the appended rows.

* `replay_cons`: the first row takes the last event of its key, and the
  other events go to the other rows.
* `mem_replay_iff`: which keys are set after a replay.
* `mem_leaders_iff`: `leaders` computes the keys that can come first among
  those set.
* `order_free_iff`: when every order of arrival sets the same keys and puts
  the same value of `f` first.
-/
namespace Insta.Core.KeyedLog

variable {κ : Type}

/-- The key of the first row that is set. -/
def leader (rows : List (κ × Bool)) : Option κ := (rows.find? Prod.snd).map Prod.fst

theorem leader_cons (r : κ × Bool) (rs : List (κ × Bool)) :
    leader (r :: rs) = if r.2 then some r.1 else leader rs := by
  unfold leader
  rw [List.find?_cons]
  cases r.2 <;> rfl

theorem mem_of_leader {rows : List (κ × Bool)} {k : κ} (h : leader rows = some k) : (k, true) ∈ rows := by
  obtain ⟨⟨k', b⟩, hr, rfl⟩ := Option.map_eq_some_iff.1 h
  have hb : b = true := List.find?_some hr
  exact hb ▸ List.mem_of_find?_eq_some hr

theorem leader_eq_none {rows : List (κ × Bool)} (h : leader rows = none) (k : κ) : (k, true) ∉ rows := by
  intro hk
  have := List.find?_eq_none.1 (Option.map_eq_none_iff.1 h) _ hk
  exact this rfl

variable [DecidableEq κ]

def upsert : List (κ × Bool) → κ × Bool → List (κ × Bool)
  | [], e => [e]
  | r :: rs, e => if r.1 = e.1 then e :: rs else r :: upsert rs e

/-- The rows after the events `es`, oldest first. -/
def replay (rows es : List (κ × Bool)) : List (κ × Bool) := es.foldl upsert rows

/-- The events about `k`, and the others. -/
def about (k : κ) (es : List (κ × Bool)) : List (κ × Bool) := es.filter fun e => e.1 = k

def without (k : κ) (es : List (κ × Bool)) : List (κ × Bool) := es.filter fun e => ¬ e.1 = k

/-- The flag the events leave in the row `r` they overwrite. -/
def finalFlag (r : κ × Bool) (es : List (κ × Bool)) : Bool := ((about r.1 es).getLast?.getD r).2

theorem mem_about {k : κ} {es : List (κ × Bool)} {e : κ × Bool} : e ∈ about k es ↔ e ∈ es ∧ e.1 = k := by
  simp [about]

theorem mem_without {k : κ} {es : List (κ × Bool)} {e : κ × Bool} : e ∈ without k es ↔ e ∈ es ∧ e.1 ≠ k := by
  simp [without]

theorem about_cons_self {k : κ} {e : κ × Bool} (h : e.1 = k) (es : List (κ × Bool)) :
    about k (e :: es) = e :: about k es := List.filter_cons_of_pos (by simpa using h)

theorem about_cons_of_ne {k : κ} {e : κ × Bool} (h : e.1 ≠ k) (es : List (κ × Bool)) :
    about k (e :: es) = about k es := List.filter_cons_of_neg (by simpa using h)

theorem without_cons_self {k : κ} {e : κ × Bool} (h : e.1 = k) (es : List (κ × Bool)) :
    without k (e :: es) = without k es := List.filter_cons_of_neg (by simpa using h)

theorem without_cons_of_ne {k : κ} {e : κ × Bool} (h : e.1 ≠ k) (es : List (κ × Bool)) :
    without k (e :: es) = e :: without k es := List.filter_cons_of_pos (by simpa using h)

theorem about_without_of_ne {k k' : κ} (h : k ≠ k') (es : List (κ × Bool)) :
    about k (without k' es) = about k es := by
  unfold about without
  rw [List.filter_filter]
  refine List.filter_congr fun e _ => ?_
  by_cases he : e.1 = k
  · simp [he, h]
  · simp [he]

theorem about_without_self (k : κ) (es : List (κ × Bool)) : about k (without k es) = [] :=
  List.filter_eq_nil_iff.2 fun e he => by simpa using (mem_without.1 he).2

/-- The two parts are all events. -/
theorem without_append_about_perm (k : κ) (es : List (κ × Bool)) : (without k es ++ about k es).Perm es := by
  have h := List.filter_append_perm (fun e : κ × Bool => decide (e.1 = k)) es
  refine List.perm_append_comm.trans ?_
  simpa [about, without] using h

/-! ## Replay -/

theorem replay_cons (r : κ × Bool) (rs es : List (κ × Bool)) :
    replay (r :: rs) es = (r.1, finalFlag r es) :: replay rs (without r.1 es) := by
  induction es generalizing r rs with
  | nil => rfl
  | cons e es ih =>
    show replay (upsert (r :: rs) e) es = _
    by_cases h : r.1 = e.1
    · have hup : upsert (r :: rs) e = e :: rs := by simp [upsert, h]
      rw [hup, ih, without_cons_self h.symm]
      unfold finalFlag
      rw [about_cons_self h.symm, List.getLast?_cons, h]
      rfl
    · have hne : e.1 ≠ r.1 := fun he => h he.symm
      have hup : upsert (r :: rs) e = r :: upsert rs e := by simp [upsert, h]
      rw [hup, ih, without_cons_of_ne hne]
      unfold finalFlag
      rw [about_cons_of_ne hne]
      rfl

/-- With no rows, the first event makes one. -/
theorem replay_nil_cons (e : κ × Bool) (es : List (κ × Bool)) :
    replay [] (e :: es) = (e.1, finalFlag e es) :: replay [] (without e.1 es) := replay_cons e [] es

theorem upsert_of_new {rows : List (κ × Bool)} {e : κ × Bool} (h : ∀ r ∈ rows, r.1 ≠ e.1) :
    upsert rows e = rows ++ [e] := by
  induction rows with
  | nil => rfl
  | cons r rs ih =>
    simp only [upsert, if_neg (h r List.mem_cons_self), List.cons_append]
    rw [ih fun x hx => h x (List.mem_cons_of_mem _ hx)]

/-- Rows come from rows and events. -/
theorem mem_of_mem_upsert {rows : List (κ × Bool)} {e x : κ × Bool} (h : x ∈ upsert rows e) :
    x ∈ rows ∨ x = e := by
  induction rows with
  | nil => exact .inr (List.mem_singleton.1 h)
  | cons r rs ih =>
    unfold upsert at h
    split at h
    · rcases List.mem_cons.1 h with h | h
      · exact .inr h
      · exact .inl (List.mem_cons_of_mem _ h)
    · rcases List.mem_cons.1 h with h | h
      · exact .inl (h ▸ List.mem_cons_self)
      · exact (ih h).imp_left (List.mem_cons_of_mem _)

theorem mem_of_mem_replay {rows es : List (κ × Bool)} {x : κ × Bool} (h : x ∈ replay rows es) :
    x ∈ rows ∨ x ∈ es := by
  induction es generalizing rows with
  | nil => exact .inl h
  | cons e es ih =>
    rcases ih h with h | h
    · rcases mem_of_mem_upsert h with h | rfl
      · exact .inl h
      · exact .inr List.mem_cons_self
    · exact .inr (List.mem_cons_of_mem _ h)

/-- `k` is set by the events about it; without any, by its rows. -/
def SetBy (k : κ) (rows es : List (κ × Bool)) : Prop :=
  match (about k es).getLast? with
  | some e => e.2 = true
  | none => (k, true) ∈ rows

theorem mem_replay_nil_iff {k : κ} (es : List (κ × Bool)) : (k, true) ∈ replay [] es ↔ SetBy k [] es := by
  match es with
  | [] => simp [replay, SetBy, about]
  | e :: es =>
    have ih := mem_replay_nil_iff (k := k) (without e.1 es)
    rw [replay_nil_cons, List.mem_cons, ih]
    unfold SetBy finalFlag
    by_cases h : e.1 = k
    · subst h
      rw [about_without_self, about_cons_self rfl, List.getLast?_cons]
      simp
    · rw [about_without_of_ne (fun he => h he.symm), about_cons_of_ne h]
      simp [show k ≠ e.1 from fun he => h he.symm]
termination_by es.length
decreasing_by
  exact Nat.lt_succ_of_le (List.length_filter_le _ _)

/-- A key is set after the events iff they set it, or a row they do not
overwrite was set. -/
theorem mem_replay_iff {k : κ} (rows es : List (κ × Bool)) :
    (k, true) ∈ replay rows es ↔ (k, true) ∈ rows.eraseP (fun r => r.1 = k) ∨ SetBy k rows es := by
  induction rows generalizing es with
  | nil => rw [mem_replay_nil_iff]; simp
  | cons r rs ih =>
    obtain ⟨k', b⟩ := r
    rw [replay_cons, List.mem_cons, ih]
    by_cases h : k' = k
    · subst h
      have hrest : SetBy k' rs (without k' es) ↔ (k', true) ∈ rs := by
        unfold SetBy; rw [about_without_self]; rfl
      have hsub : (k', true) ∈ rs.eraseP (fun r => r.1 = k') → (k', true) ∈ rs :=
        fun hm => List.mem_of_mem_eraseP hm
      rw [List.eraseP_cons_of_pos (by simp), hrest]
      unfold SetBy finalFlag
      cases (about k' es).getLast? <;> simp <;> tauto
    · rw [List.eraseP_cons_of_neg (by simpa using h)]
      unfold SetBy
      rw [about_without_of_ne (fun he => h he.symm)]
      have hne : ∀ c, (k, true) ≠ (k', c) := fun c hc => h (congrArg Prod.fst hc).symm
      simp [hne]

/-! ## Choosing an order -/

/-- Any element can come last. -/
theorem exists_perm_getLast? {α : Type} [DecidableEq α] {l : List α} {a : α} (h : a ∈ l) :
    ∃ l' : List α, l'.Perm l ∧ l'.getLast? = some a := by
  refine ⟨l.erase a ++ [a], ?_, by simp⟩
  exact List.perm_append_comm.trans (List.perm_cons_erase h).symm

/-- An order of what `g` selects is the order of some rearrangement. -/
theorem exists_perm_filterMap {α β : Type} {g : α → Option β} {es es' : List β} (h : es.Perm es') :
    ∀ l : List α, l.filterMap g = es → ∃ l' : List α, l'.Perm l ∧ l'.filterMap g = es' := by
  induction h with
  | nil => exact fun l hl => ⟨l, .refl l, hl⟩
  | cons x h ih =>
    intro l hl
    obtain ⟨l₁, a, l₂, rfl, hl₁, ha, hl₂⟩ := List.filterMap_eq_cons_iff.1 hl
    obtain ⟨l', hp, hl'⟩ := ih l₂ hl₂
    refine ⟨l₁ ++ a :: l', (hp.cons a).append_left l₁, ?_⟩
    rw [List.filterMap_append, List.filterMap_cons_some ha, List.filterMap_eq_nil_iff.2 hl₁, hl']
    rfl
  | swap x y es =>
    intro l hl
    obtain ⟨l₁, a, l₂, rfl, hl₁, ha, hl₂⟩ := List.filterMap_eq_cons_iff.1 hl
    obtain ⟨l₃, b, l₄, rfl, hl₃, hb, hl₄⟩ := List.filterMap_eq_cons_iff.1 hl₂
    refine ⟨l₁ ++ l₃ ++ b :: a :: l₄, ?_, ?_⟩
    · rw [List.append_assoc]
      refine List.Perm.append_left l₁ ?_
      exact (List.perm_middle.trans ((List.perm_middle).cons b)).trans (.swap a b _) |>.trans
        ((List.perm_middle.symm).cons a)
    · rw [List.filterMap_append, List.filterMap_append, List.filterMap_cons_some hb,
        List.filterMap_cons_some ha, List.filterMap_eq_nil_iff.2 hl₁, List.filterMap_eq_nil_iff.2 hl₃, hl₄]
      rfl
  | trans _ _ ih₁ ih₂ =>
    intro l hl
    obtain ⟨l₁, hp₁, hl₁⟩ := ih₁ l hl
    obtain ⟨l₂, hp₂, hl₂⟩ := ih₂ l₁ hl₁
    exact ⟨l₂, hp₂.trans hp₁, hl₂⟩

/-- The flags an order can leave in `r`. -/
def flags (r : κ × Bool) (es : List (κ × Bool)) : List Bool :=
  if about r.1 es = [] then [r.2] else (about r.1 es).map Prod.snd

theorem about_perm {k : κ} {es es' : List (κ × Bool)} (h : es'.Perm es) : (about k es').Perm (about k es) :=
  h.filter _

theorem without_perm {k : κ} {es es' : List (κ × Bool)} (h : es'.Perm es) :
    (without k es').Perm (without k es) := h.filter _

theorem finalFlag_mem {r : κ × Bool} {es es' : List (κ × Bool)} (h : es'.Perm es) :
    finalFlag r es' ∈ flags r es := by
  have hp := about_perm (k := r.1) h
  unfold finalFlag flags
  split
  · rename_i hnil
    rw [hnil] at hp
    rw [hp.eq_nil]
    exact List.mem_singleton.2 rfl
  · rename_i hne
    cases hl : (about r.1 es').getLast? with
    | none =>
      rw [List.getLast?_eq_none_iff.1 hl] at hp
      exact absurd hp.symm.eq_nil hne
    | some e => exact List.mem_map_of_mem (hp.subset (List.mem_of_getLast? hl))

/-- Every such flag is left by some order, whatever the order of the other
events. -/
theorem exists_order {r : κ × Bool} {es rest : List (κ × Bool)} {b : Bool} (hb : b ∈ flags r es)
    (hrest : rest.Perm (without r.1 es)) :
    ∃ es', es'.Perm es ∧ finalFlag r es' = b ∧ without r.1 es' = rest := by
  obtain ⟨last, hlast, hflag⟩ : ∃ last : List (κ × Bool), last.Perm (about r.1 es) ∧ (last.getLast?.getD r).2 = b := by
    unfold flags at hb
    split at hb
    · rename_i hnil
      exact ⟨[], by rw [hnil], (List.mem_singleton.1 hb).symm⟩
    · obtain ⟨e, he, rfl⟩ := List.mem_map.1 hb
      obtain ⟨l, hl, hle⟩ := exists_perm_getLast? he
      exact ⟨l, hl, by rw [hle]; rfl⟩
  -- the events about the row come last
  have hkeys : ∀ e ∈ last, e.1 = r.1 := fun e he => (mem_about.1 (hlast.subset he)).2
  have hothers : ∀ e ∈ rest, e.1 ≠ r.1 := fun e he => (mem_without.1 (hrest.subset he)).2
  refine ⟨rest ++ last, (hrest.append hlast).trans (without_append_about_perm r.1 es), ?_, ?_⟩
  · have habout : about r.1 (rest ++ last) = last := by
      unfold about
      rw [List.filter_append, List.filter_eq_nil_iff.2 (by simpa using hothers),
        List.filter_eq_self.2 (by simpa using hkeys), List.nil_append]
    unfold finalFlag
    rw [habout]
    exact hflag
  · unfold without
    rw [List.filter_append, List.filter_eq_self.2 (by simpa using hothers),
      List.filter_eq_nil_iff.2 (by simpa using hkeys), List.append_nil]

/-! ## Who can come first -/

/-- The keys that some order of `es` puts first among the rows set. -/
def leaders : List (κ × Bool) → List (κ × Bool) → List κ
  | [], es => (es.filter Prod.snd).map Prod.fst
  | r :: rs, es =>
    (if true ∈ flags r es then [r.1] else []) ++
    (if false ∈ flags r es then leaders rs (without r.1 es) else [])

theorem mem_leaders_of_leader {rows es es' : List (κ × Bool)} {k : κ} (hp : es'.Perm es)
    (h : leader (replay rows es') = some k) : k ∈ leaders rows es := by
  induction rows generalizing es es' with
  | nil =>
    have hk : (k, true) ∈ es := hp.subset ((mem_of_mem_replay (mem_of_leader h)).resolve_left (by simp))
    exact List.mem_map.2 ⟨_, List.mem_filter.2 ⟨hk, rfl⟩, rfl⟩
  | cons r rs ih =>
    have hflag := finalFlag_mem (r := r) hp
    rw [replay_cons, leader_cons] at h
    unfold leaders
    refine List.mem_append.2 ?_
    cases hb : finalFlag r es' with
    | true =>
      rw [hb] at h hflag
      cases h
      exact .inl (by rw [if_pos hflag]; exact List.mem_singleton.2 rfl)
    | false =>
      rw [hb] at h hflag
      exact .inr (by rw [if_pos hflag]; exact ih (without_perm hp) h)

/-- A key that an event sets can be appended first. -/
theorem exists_leader_nil {es : List (κ × Bool)} {k : κ} (h : (k, true) ∈ es) :
    ∃ es', es'.Perm es ∧ leader (replay [] es') = some k := by
  obtain ⟨first, hfirst, hlast⟩ := exists_perm_getLast? (mem_about.2 ⟨h, rfl⟩ : (k, true) ∈ about k es)
  have hkeys : ∀ e ∈ first, e.1 = k := fun e he => (mem_about.1 (hfirst.subset he)).2
  refine ⟨first ++ without k es, ?_, ?_⟩
  · exact (hfirst.append_right _).trans (List.perm_append_comm.trans (without_append_about_perm k es))
  · cases first with
    | nil => cases hlast
    | cons e first =>
      have hk : e.1 = k := hkeys e List.mem_cons_self
      have habout : about k (first ++ without k es) = first := by
        unfold about
        rw [List.filter_append, List.filter_eq_self.2 (by simpa using fun e he => hkeys e (List.mem_cons_of_mem _ he))]
        exact (congrArg (first ++ ·) (about_without_self k es)).trans (List.append_nil _)
      have hflag : finalFlag e (first ++ without k es) = true := by
        unfold finalFlag
        rw [hk, habout]
        rw [List.getLast?_cons] at hlast
        rw [Option.some.inj hlast]
      rw [List.cons_append, replay_nil_cons, leader_cons, hflag, hk]
      rfl

theorem exists_leader {rows es : List (κ × Bool)} {k : κ} (h : k ∈ leaders rows es) :
    ∃ es', es'.Perm es ∧ leader (replay rows es') = some k := by
  induction rows generalizing es with
  | nil =>
    obtain ⟨⟨k', b⟩, he, rfl⟩ := List.mem_map.1 h
    obtain ⟨he, hb⟩ := List.mem_filter.1 he
    exact exists_leader_nil (hb ▸ he)
  | cons r rs ih =>
    unfold leaders at h
    rcases List.mem_append.1 h with h | h
    · split at h
      · rename_i hflag
        obtain ⟨es', hp, hf, -⟩ := exists_order hflag (.refl _)
        refine ⟨es', hp, ?_⟩
        rw [replay_cons, leader_cons, hf, List.mem_singleton.1 h]
        rfl
      · cases h
    · split at h
      · rename_i hflag
        obtain ⟨rest, hrest, hl⟩ := ih h
        obtain ⟨es', hp, hf, hw⟩ := exists_order hflag hrest
        refine ⟨es', hp, ?_⟩
        rw [replay_cons, leader_cons, hf, hw]
        exact hl
      · cases h

theorem mem_leaders_iff {rows es : List (κ × Bool)} {k : κ} :
    k ∈ leaders rows es ↔ ∃ es', es'.Perm es ∧ leader (replay rows es') = some k :=
  ⟨exists_leader, fun ⟨_, hp, h⟩ => mem_leaders_of_leader hp h⟩

/-! ## Orders that agree -/

/-- Where the events of a key disagree, the key is set by a row that they do
not overwrite. -/
def Settled (rows es : List (κ × Bool)) : Prop :=
  ∀ e ∈ es, (e.1, !e.2) ∈ es → (e.1, true) ∈ rows.eraseP fun r => r.1 = e.1

instance (rows es : List (κ × Bool)) : Decidable (Settled rows es) :=
  inferInstanceAs (Decidable (∀ e ∈ es, (e.1, !e.2) ∈ es → (e.1, true) ∈ rows.eraseP fun r => r.1 = e.1))

/-- Where they agree, their last one does not depend on the order. -/
theorem setBy_congr {k : κ} {rows es es₁ es₂ : List (κ × Bool)} (h₁ : es₁.Perm es) (h₂ : es₂.Perm es)
    (hagree : ¬ ((k, true) ∈ es ∧ (k, false) ∈ es)) (h : SetBy k rows es₁) : SetBy k rows es₂ := by
  have hp : (about k es₁).Perm (about k es₂) := about_perm (h₁.trans h₂.symm)
  unfold SetBy at h ⊢
  cases hl₁ : (about k es₁).getLast? with
  | none =>
    rw [List.getLast?_eq_none_iff.1 hl₁] at hp
    rw [hl₁] at h
    rw [hp.symm.eq_nil]
    exact h
  | some e₁ =>
    rw [hl₁] at h
    cases hl₂ : (about k es₂).getLast? with
    | none =>
      rw [List.getLast?_eq_none_iff.1 hl₂] at hp
      rw [hp.eq_nil] at hl₁
      cases hl₁
    | some e₂ =>
      obtain ⟨hm₁, hk₁⟩ := mem_about.1 (List.mem_of_getLast? hl₁)
      obtain ⟨hm₂, hk₂⟩ := mem_about.1 (List.mem_of_getLast? hl₂)
      have ht : (k, true) ∈ es := by
        have : e₁ = (k, true) := Prod.ext hk₁ h
        exact this ▸ h₁.subset hm₁
      show e₂.2 = true
      by_contra hf
      have : e₂ = (k, false) := Prod.ext hk₂ (Bool.eq_false_iff.2 hf)
      exact hagree ⟨ht, this ▸ h₂.subset hm₂⟩

theorem mem_replay_congr {k : κ} {rows es es₁ es₂ : List (κ × Bool)} (hs : Settled rows es)
    (h₁ : es₁.Perm es) (h₂ : es₂.Perm es) (h : (k, true) ∈ replay rows es₁) : (k, true) ∈ replay rows es₂ := by
  rw [mem_replay_iff] at h ⊢
  by_cases hboth : (k, true) ∈ es ∧ (k, false) ∈ es
  · exact .inl (hs _ hboth.1 hboth.2)
  · exact h.imp_right (setBy_congr h₁ h₂ hboth)

/-- Events that disagree about a key can be ordered to leave either flag. -/
theorem exists_order_setBy {k : κ} (rows : List (κ × Bool)) {es : List (κ × Bool)} {b : Bool}
    (h : (k, b) ∈ es) : ∃ es', es'.Perm es ∧ (SetBy k rows es' ↔ b = true) := by
  obtain ⟨last, hlast, hb⟩ := exists_perm_getLast? (mem_about.2 ⟨h, rfl⟩ : (k, b) ∈ about k es)
  have hkeys : ∀ e ∈ last, e.1 = k := fun e he => (mem_about.1 (hlast.subset he)).2
  refine ⟨without k es ++ last, (hlast.append_left _).trans (without_append_about_perm k es), ?_⟩
  have habout : about k (without k es ++ last) = last := by
    have hself : about k last = last := List.filter_eq_self.2 (by simpa using hkeys)
    have happ : about k (without k es ++ last) = about k (without k es) ++ about k last := List.filter_append ..
    rw [happ, about_without_self, hself, List.nil_append]
  unfold SetBy
  rw [habout, hb]

theorem settled_of_congr {rows es : List (κ × Bool)}
    (h : ∀ es₁ es₂, es₁.Perm es → es₂.Perm es → ∀ k, (k, true) ∈ replay rows es₁ → (k, true) ∈ replay rows es₂) :
    Settled rows es := by
  rintro ⟨k, b⟩ hb hnot
  have hboth : (k, true) ∈ es ∧ (k, false) ∈ es := by
    cases b with
    | true => exact ⟨hb, hnot⟩
    | false => exact ⟨hnot, hb⟩
  obtain ⟨es₁, hp₁, hs₁⟩ := exists_order_setBy rows hboth.1
  obtain ⟨es₂, hp₂, hs₂⟩ := exists_order_setBy rows hboth.2
  have hset := h es₁ es₂ hp₁ hp₂ k ((mem_replay_iff rows es₁).2 (.inr (hs₁.2 rfl)))
  rcases (mem_replay_iff rows es₂).1 hset with hm | hm
  · exact hm
  · cases hs₂.1 hm

/-- The order does not matter iff the events of a key agree wherever it
matters, and all keys that can come first have the same `f`. -/
theorem order_free_iff {π : Type} (f : κ → π) (rows es : List (κ × Bool)) :
    (∀ es₁ es₂, es₁.Perm es → es₂.Perm es →
      (∀ k, (k, true) ∈ replay rows es₁ ↔ (k, true) ∈ replay rows es₂) ∧
      (leader (replay rows es₁)).map f = (leader (replay rows es₂)).map f) ↔
    Settled rows es ∧ ∀ k ∈ leaders rows es, ∀ k' ∈ leaders rows es, f k = f k' := by
  constructor
  · intro h
    refine ⟨settled_of_congr fun es₁ es₂ h₁ h₂ k => ((h es₁ es₂ h₁ h₂).1 k).1, fun k hk k' hk' => ?_⟩
    obtain ⟨es₁, h₁, hl₁⟩ := mem_leaders_iff.1 hk
    obtain ⟨es₂, h₂, hl₂⟩ := mem_leaders_iff.1 hk'
    have heq := (h es₁ es₂ h₁ h₂).2
    rw [hl₁, hl₂] at heq
    exact Option.some.inj heq
  · rintro ⟨hs, hlead⟩ es₁ es₂ h₁ h₂
    have hiff : ∀ k, (k, true) ∈ replay rows es₁ ↔ (k, true) ∈ replay rows es₂ :=
      fun k => ⟨mem_replay_congr hs h₁ h₂, mem_replay_congr hs h₂ h₁⟩
    refine ⟨hiff, ?_⟩
    -- one order sets some key iff the other does
    cases hl₁ : leader (replay rows es₁) with
    | none =>
      cases hl₂ : leader (replay rows es₂) with
      | none => rfl
      | some k => exact absurd ((hiff k).2 (mem_of_leader hl₂)) (leader_eq_none hl₁ k)
    | some k₁ =>
      cases hl₂ : leader (replay rows es₂) with
      | none => exact absurd ((hiff k₁).1 (mem_of_leader hl₁)) (leader_eq_none hl₂ k₁)
      | some k₂ =>
        have hk₁ := mem_leaders_iff.2 ⟨es₁, h₁, hl₁⟩
        have hk₂ := mem_leaders_iff.2 ⟨es₂, h₂, hl₂⟩
        exact congrArg some (hlead k₁ hk₁ k₂ hk₂)

end Insta.Core.KeyedLog
