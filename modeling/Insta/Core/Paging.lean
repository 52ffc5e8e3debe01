import Mathlib.Data.List.Sort

/-!
# Reading a list page by page while it changes

A reader asks for page after page of a list, and between two pages entries
may be taken out of it and others put in, wherever they belong; those that
stay keep their order (`Kept`). An entry that is put in moves the others
back, where the reader still comes by. One that is taken out moves the
others forward, and one of them may slip past the reader.

* `Reading.Inv`: of the entries in front of the reader that were there all
  the time, no more are unseen than entries were taken out.
* `Reading.Inv.missed_le`: so no more are unseen when the last page is read.
* `insertionSort_sublist`: sorting keeps the order of what stays.
-/
namespace Insta.Core.Paging

variable {α : Type}

/-! ## Pages -/

/-- Page `k`, counted from 0. -/
def page (size k : Nat) (l : List α) : List α := (l.drop (size * k)).take size

theorem take_succ_page (size k : Nat) (l : List α) :
    l.take (size * (k + 1)) = l.take (size * k) ++ page size k l := by
  rw [page, Nat.mul_succ, List.take_add]

/-- Entries without `q` put in anywhere push others out of the front. -/
theorem countP_take_of_insert {q : α → Bool} {s l : List α} (h : s.Sublist l) (hnodup : l.Nodup)
    (hq : ∀ x ∈ l, q x = true → x ∈ s) (n : Nat) : (l.take n).countP q ≤ (s.take n).countP q := by
  induction h generalizing n with
  | slnil => exact le_rfl
  | @cons s l a h ih =>
    obtain ⟨ha, hl⟩ := List.nodup_cons.1 hnodup
    cases n with
    | zero => simp
    | succ n =>
      have hqa : ¬ q a = true := fun hqa => ha (h.subset (hq a List.mem_cons_self hqa))
      rw [List.take_succ_cons, List.countP_cons_of_neg hqa]
      calc (l.take n).countP q ≤ (s.take n).countP q := ih hl (fun x hx => hq x (List.mem_cons_of_mem a hx)) n
        _ ≤ (s.take (n + 1)).countP q := (List.take_sublist_take_left (Nat.le_succ n)).countP_le
  | @cons_cons s l a h ih =>
    obtain ⟨ha, hl⟩ := List.nodup_cons.1 hnodup
    cases n with
    | zero => simp
    | succ n =>
      have hrest : ∀ x ∈ l, q x = true → x ∈ s := fun x hx hqx => by
        rcases List.mem_cons.1 (hq x (List.mem_cons_of_mem a hx) hqx) with rfl | hs
        · exact absurd hx ha
        · exact hs
      rw [List.take_succ_cons, List.take_succ_cons, List.countP_cons, List.countP_cons]
      exact Nat.add_le_add_right (ih hl hrest n) _

/-- Every entry taken out lets one more into the front. -/
theorem countP_take_of_remove {q : α → Bool} {s l : List α} (h : s.Sublist l) (n : Nat) :
    (s.take n).countP q + s.length ≤ (l.take n).countP q + l.length := by
  induction h generalizing n with
  | slnil => exact le_rfl
  | @cons s l a h ih =>
    have hnext : (l.take n).countP q ≤ ((a :: l).take n).countP q + 1 := by
      cases n with
      | zero => simp
      | succ n =>
        rw [List.take_succ_cons, List.countP_cons, List.take_add_one, List.countP_append]
        have hone : l[n]?.toList.countP q ≤ 1 :=
          List.countP_le_length.trans (by cases l[n]? <;> simp)
        omega
    have := ih n
    rw [List.length_cons]
    omega
  | @cons_cons s l a h ih =>
    cases n with
    | zero => simpa using h.length_le
    | succ n =>
      have := ih n
      simp only [List.take_succ_cons, List.countP_cons, List.length_cons]
      omega

/-! ## A reader -/

/-- What stays in the list keeps its order. -/
def Kept (l l' : List α) : Prop := ∃ s : List α, s.Sublist l ∧ s.Sublist l' ∧ ∀ x ∈ l, x ∈ l' → x ∈ s

/-- A list, the number of pages that were read of it and what was on them;
which entries were there all the time, and how many were taken out. -/
structure Reading (α : Type) where
  list : List α
  turned : Nat
  seen : List α
  stayed : List α
  removed : Nat
  deriving DecidableEq

namespace Reading

variable [DecidableEq α]

def start (l : List α) : Reading α := ⟨l, 0, [], l, 0⟩

/-- The next page is read. -/
def turn (r : Reading α) (entries : List α) : Reading α :=
  { r with seen := r.seen ++ entries, turned := r.turned + 1 }

/-- The list becomes `l`. -/
def change (r : Reading α) (l : List α) : Reading α :=
  { r with
    list := l
    stayed := r.stayed.filter fun x => x ∈ l
    removed := r.removed + r.list.countP fun x => x ∉ l }

/-- Was there all the time and has not been on a page. -/
def unseen (r : Reading α) (x : α) : Bool := x ∈ r.stayed ∧ x ∉ r.seen

structure Inv (size : Nat) (r : Reading α) : Prop where
  nodup : r.list.Nodup
  stayed_nodup : r.stayed.Nodup
  there : ∀ x ∈ r.stayed, x ∈ r.list
  missed : (r.list.take (size * r.turned)).countP r.unseen ≤ r.removed

theorem Inv.start {size : Nat} {l : List α} (h : l.Nodup) : Inv size (start l) :=
  ⟨h, h, fun _ hx => hx, by simp [Reading.start]⟩

theorem Inv.turn {size : Nat} {r : Reading α} (h : Inv size r) :
    Inv size (r.turn (page size r.turned r.list)) := by
  refine ⟨h.nodup, h.stayed_nodup, h.there, ?_⟩
  show ((r.list.take (size * (r.turned + 1))).countP _) ≤ r.removed
  rw [take_succ_page, List.countP_append]
  -- what is on the page is seen, and what was seen stays seen
  have hpage : (page size r.turned r.list).countP (r.turn (page size r.turned r.list)).unseen = 0 := by
    refine List.countP_eq_zero.2 fun x hx => ?_
    simp [unseen, Reading.turn, hx]
  have hfront : (r.list.take (size * r.turned)).countP (r.turn (page size r.turned r.list)).unseen ≤
      (r.list.take (size * r.turned)).countP r.unseen := by
    refine List.countP_mono_left fun x _ hx => ?_
    simp only [unseen, Reading.turn, List.mem_append, decide_eq_true_eq, not_or] at hx ⊢
    exact ⟨hx.1, hx.2.1⟩
  have := h.missed
  omega

/-- Among distinct entries, those that are gone are counted by `countP`. -/
theorem length_le_of_kept {l l' s : List α} (hnodup : l.Nodup) (h : ∀ x ∈ l, x ∈ l' → x ∈ s) :
    l.length ≤ s.length + l.countP fun x => x ∉ l' := by
  have hsub : (l.filter fun x => x ∈ l').length ≤ s.length := by
    refine (List.subperm_of_subset (hnodup.filter _) fun x hx => ?_).length_le
    obtain ⟨hx, hl'⟩ := List.mem_filter.1 hx
    exact h x hx (by simpa using hl')
  have hsplit : l.length = l.countP (fun x => decide (x ∈ l')) + l.countP fun x => x ∉ l' := by
    simpa using l.length_eq_countP_add_countP fun x => decide (x ∈ l')
  rw [← List.countP_eq_length_filter] at hsub
  omega

theorem Inv.change {size : Nat} {r : Reading α} (h : Inv size r) {l : List α} (hl : l.Nodup)
    (hkept : Kept r.list l) : Inv size (r.change l) := by
  obtain ⟨s, hs, hs', hall⟩ := hkept
  refine ⟨hl, h.stayed_nodup.filter _, fun x hx => of_decide_eq_true (List.mem_filter.1 hx).2, ?_⟩
  have hstayed : ∀ x, (r.change l).unseen x = true → r.unseen x = true := fun x hx => by
    simp only [unseen, Reading.change, List.mem_filter, decide_eq_true_eq] at hx ⊢
    exact ⟨hx.1.1, hx.2⟩
  have hin : ∀ x ∈ l, (r.change l).unseen x = true → x ∈ s := fun x hx hu => by
    have hold := hstayed x hu
    simp only [unseen, decide_eq_true_eq] at hold
    exact hall x (h.there x hold.1) hx
  have hremoved := length_le_of_kept h.nodup hall
  have hmissed := h.missed
  calc (l.take (size * r.turned)).countP (r.change l).unseen
      ≤ (s.take (size * r.turned)).countP (r.change l).unseen := countP_take_of_insert hs' hl hin _
    _ ≤ (s.take (size * r.turned)).countP r.unseen := List.countP_mono_left fun x _ => hstayed x
    _ ≤ (r.list.take (size * r.turned)).countP r.unseen + (r.list.length - s.length) := by
      have := countP_take_of_remove (q := r.unseen) hs (size * r.turned)
      have := hs.length_le
      omega
    _ ≤ r.removed + r.list.countP fun x => x ∉ l := by omega

theorem Inv.missed_le {size : Nat} {r : Reading α} (h : Inv size r)
    (hlast : r.list.length ≤ size * r.turned) : (r.stayed.countP fun x => x ∉ r.seen) ≤ r.removed := by
  have hall := h.missed
  rw [List.take_of_length_le hlast] at hall
  refine le_trans ?_ hall
  rw [List.countP_eq_length_filter, List.countP_eq_length_filter]
  refine (List.subperm_of_subset (h.stayed_nodup.filter _) fun x hx => ?_).length_le
  obtain ⟨hx, hseen⟩ := List.mem_filter.1 hx
  exact List.mem_filter.2 ⟨h.there x hx, by simpa [unseen, hx] using hseen⟩

end Reading

/-! ## Sorted lists -/

theorem insertionSort_sublist {r : α → α → Prop} [DecidableRel r] [Std.Total r] [IsTrans α r] {l l' : List α}
    (h : l.Sublist l') : (l.insertionSort r).Sublist (l'.insertionSort r) := by
  induction h with
  | slnil => exact .slnil
  | @cons _ l' a _ ih => exact ih.trans (List.sublist_orderedInsert a _)
  | @cons_cons _ l' a _ ih => exact ih.orderedInsert_sublist a (List.pairwise_insertionSort r l')

end Insta.Core.Paging
