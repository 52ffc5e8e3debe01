import Mathlib.Data.List.Basic
import Mathlib.Data.List.MinMax
import Mathlib.Data.List.Nodup
import Mathlib.Data.List.Pairwise

/-!
# Tables with an auto-increment key and unique indexes

A table is the list of its rows in primary-key order, together with the
next key. The structure carries what the database guarantees whatever the
application does: keys are distinct, rows are stored in key order, keys are
never reused, and no two rows stand in conflict on a unique index
(`Row.clash`). A write that would break an index returns `none`.

* `insert`, `modify`, `delete`: `INSERT`, `UPDATE ... WHERE id = i`,
  `DELETE ... WHERE p`, each with its membership lemma.
* `Writes`: what an `INSERT` and an `UPDATE` have in common, and the rule
  for keys that the application keeps unique (`Writes.unique`).
* `find`, `first`, `newest`: `find(id)`, `find_by` in key order, and
  `find_by` under a scope that orders newest first.
-/
namespace Insta.Core

/-- What a table has to know of its rows: the primary key, and which rows a
unique index does not let stand side by side. -/
class Row (R : Type) where
  rowId : R → Nat
  withId : Nat → R → R
  clash : R → R → Bool
  rowId_withId : ∀ n r, rowId (withId n r) = n
  withId_rowId : ∀ r, withId (rowId r) r = r
  clash_comm : ∀ a b, clash a b = clash b a

export Row (rowId withId clash)

attribute [simp] Row.rowId_withId Row.withId_rowId

structure Table (R : Type) [Row R] where
  rows : List R
  nextId : Nat
  sorted : rows.Pairwise fun a b => rowId a < rowId b
  unclash : rows.Pairwise fun a b => clash a b = false
  below : ∀ r ∈ rows, rowId r < nextId
  deriving DecidableEq

namespace Table

variable {R : Type} [Row R]

instance : Inhabited (Table R) := ⟨⟨[], 1, .nil, .nil, by simp⟩⟩

theorem nodup_rowId (t : Table R) : (t.rows.map rowId).Nodup :=
  List.pairwise_map.2 (t.sorted.imp fun h => Nat.ne_of_lt h)

/-- Rows are determined by their keys. -/
theorem eq_of_rowId (t : Table R) {a b : R} (ha : a ∈ t.rows) (hb : b ∈ t.rows)
    (h : rowId a = rowId b) : a = b :=
  List.inj_on_of_nodup_map t.nodup_rowId ha hb h

/-- Two rows of a table do not conflict. -/
theorem clash_false (t : Table R) {a b : R} (ha : a ∈ t.rows) (hb : b ∈ t.rows)
    (hne : rowId a ≠ rowId b) : clash a b = false := by
  have : Std.Symm (fun a b : R => clash a b = false) :=
    ⟨fun a b h => by rw [Row.clash_comm]; exact h⟩
  exact t.unclash.forall ha hb fun h => hne (by rw [h])

/-- One row has a key that is in use. -/
theorem countP_rowId {t : Table R} {r : R} (hr : r ∈ t.rows) :
    t.rows.countP (fun x => rowId x == rowId r) = 1 := by
  have h := List.count_eq_one_of_mem t.nodup_rowId (List.mem_map_of_mem hr)
  rwa [List.count, List.countP_map] at h

/-- The rows of `t'` are rows of `t`, or have keys `t` had not used: what any
inserts and deletes lead to. -/
structure Succ (t t' : Table R) : Prop where
  nextId : t.nextId ≤ t'.nextId
  rows : ∀ r ∈ t'.rows, r ∈ t.rows ∨ t.nextId ≤ rowId r

theorem Succ.refl (t : Table R) : Succ t t := ⟨le_rfl, fun _ => .inl⟩

/-- A record loaded at some time: if its row is still there, it is as it was
loaded. -/
structure Loaded (t : Table R) (r : R) : Prop where
  old : rowId r < t.nextId
  row : ∀ x ∈ t.rows, rowId x = rowId r → x = r

theorem Loaded.of_mem {t : Table R} {r : R} (h : r ∈ t.rows) : Loaded t r :=
  ⟨t.below r h, fun _ hx hid => t.eq_of_rowId hx h hid⟩

theorem Loaded.succ {t t' : Table R} {r : R} (h : Loaded t r) (hs : Succ t t') : Loaded t' r := by
  refine ⟨Nat.lt_of_lt_of_le h.old hs.nextId, fun x hx hid => ?_⟩
  rcases hs.rows x hx with hx | hnew
  · exact h.row x hx hid
  · have := h.old
    omega

/-- The rows of `t` that are left have their `f` still, the others keys that
`t` had not used: what updates that leave `f` alone lead to, too. -/
structure SuccOn {β : Type} (f : R → β) (t t' : Table R) : Prop where
  nextId : t.nextId ≤ t'.nextId
  rows : ∀ r ∈ t'.rows, (∃ x ∈ t.rows, rowId x = rowId r ∧ f x = f r) ∨ t.nextId ≤ rowId r

theorem Succ.on {β : Type} {t t' : Table R} (h : Succ t t') (f : R → β) : SuccOn f t t' :=
  ⟨h.nextId, fun r hr => (h.rows r hr).imp_left fun hr => ⟨r, hr, rfl, rfl⟩⟩

/-- A record loaded at some time: if its row is still there, it has the `f`
that was loaded. -/
structure LoadedOn {β : Type} (f : R → β) (t : Table R) (r : R) : Prop where
  old : rowId r < t.nextId
  same : ∀ x ∈ t.rows, rowId x = rowId r → f x = f r

theorem LoadedOn.of_mem {β : Type} {f : R → β} {t : Table R} {r : R} (h : r ∈ t.rows) : LoadedOn f t r :=
  ⟨t.below r h, fun _ hx hid => by rw [t.eq_of_rowId hx h hid]⟩

theorem LoadedOn.succ {β : Type} {f : R → β} {t t' : Table R} {r : R} (h : LoadedOn f t r) (hs : SuccOn f t t') :
    LoadedOn f t' r := by
  refine ⟨Nat.lt_of_lt_of_le h.old hs.nextId, fun x hx hid => ?_⟩
  rcases hs.rows x hx with ⟨y, hy, hyx, hf⟩ | hnew
  · rw [← hf]
    exact h.same y hy (hyx.trans hid)
  · have := h.old
    omega

/-! ## Lookups -/

/-- `find(i)`. -/
def find (t : Table R) (i : Nat) : Option R := t.rows.find? fun r => rowId r == i

/-- `find_by` without an order of its own, and `where(...).first`: the
matching row with the lowest key. -/
def first (t : Table R) (p : R → Bool) : Option R := t.rows.find? p

/-- `find_by` under `order(created_at: :desc)`: the matching row with the
latest stamp, the lowest key among equals. -/
def newest (stamp : R → Nat) (t : Table R) (p : R → Bool) : Option R :=
  (t.rows.filter p).argmax stamp

theorem mem_of_find {t : Table R} {i : Nat} {r : R} (h : t.find i = some r) :
    r ∈ t.rows ∧ rowId r = i :=
  ⟨List.mem_of_find?_eq_some h, by simpa using List.find?_some h⟩

theorem find_of_mem {t : Table R} {r : R} (h : r ∈ t.rows) : t.find (rowId r) = some r := by
  unfold find
  cases hf : t.rows.find? fun x => rowId x == rowId r with
  | none => exact absurd (List.find?_eq_none.1 hf r h) (by simp)
  | some x =>
    have hx := mem_of_find (t := t) hf
    rw [t.eq_of_rowId hx.1 h hx.2]

theorem find_eq_some_iff {t : Table R} {i : Nat} {r : R} :
    t.find i = some r ↔ r ∈ t.rows ∧ rowId r = i :=
  ⟨mem_of_find, fun ⟨h, hi⟩ => hi ▸ find_of_mem h⟩

theorem mem_of_first {t : Table R} {p : R → Bool} {r : R} (h : t.first p = some r) :
    r ∈ t.rows ∧ p r = true :=
  ⟨List.mem_of_find?_eq_some h, List.find?_some h⟩

theorem first_eq_none_iff {t : Table R} {p : R → Bool} :
    t.first p = none ↔ ∀ r ∈ t.rows, p r = false := by
  simp [first, List.find?_eq_none]

/-- Rows are kept in key order, so the first match has the lowest key. -/
theorem first_eq_some_iff {t : Table R} {p : R → Bool} {r : R} :
    t.first p = some r ↔ r ∈ t.rows ∧ p r = true ∧ ∀ x ∈ t.rows, p x = true → rowId r ≤ rowId x := by
  have hleast : ∀ {y}, t.first p = some y → ∀ x ∈ t.rows, p x = true → rowId y ≤ rowId x := by
    intro y h x hx hpx
    obtain ⟨-, before, after, hrows, hno⟩ := List.find?_eq_some_iff_append.1 h
    have hsorted := t.sorted
    rw [hrows] at hx hsorted
    rcases List.mem_append.1 hx with hb | ha
    · have := hno x hb
      simp [hpx] at this
    · rcases List.mem_cons.1 ha with rfl | ha
      · exact le_rfl
      · exact ((List.pairwise_cons.1 (List.pairwise_append.1 hsorted).2.1).1 x ha).le
  constructor
  · exact fun h => ⟨(mem_of_first h).1, (mem_of_first h).2, hleast h⟩
  · rintro ⟨hr, hpr, hmin⟩
    cases hf : t.first p with
    | none => exact absurd (first_eq_none_iff.1 hf r hr) (by simp [hpr])
    | some y =>
      obtain ⟨hy, hpy⟩ := mem_of_first hf
      rw [t.eq_of_rowId hy hr (le_antisymm (hleast hf r hr hpr) (hmin y hy hpy))]

theorem first_eq_head {t : Table R} {p : R → Bool} : t.first p = (t.rows.filter p).head? :=
  List.head?_filter.symm

theorem mem_of_newest {stamp : R → Nat} {t : Table R} {p : R → Bool} {r : R}
    (h : newest stamp t p = some r) : r ∈ t.rows ∧ p r = true := by
  simpa using List.mem_filter.1 (List.argmax_mem (Option.mem_def.2 h))

theorem newest_eq_none_iff {stamp : R → Nat} {t : Table R} {p : R → Bool} :
    newest stamp t p = none ↔ ∀ r ∈ t.rows, p r = false := by
  simp [newest, List.argmax_eq_none, List.filter_eq_nil_iff]

/-- The only match is found, whatever its stamp. -/
theorem newest_of_unique {stamp : R → Nat} {t : Table R} {p : R → Bool} {r : R} (hr : r ∈ t.rows) (hp : p r = true)
    (huniq : ∀ x ∈ t.rows, p x = true → x = r) : newest stamp t p = some r := by
  cases hn : newest stamp t p with
  | none => exact absurd (newest_eq_none_iff.1 hn r hr) (by simp [hp])
  | some x => rw [huniq x (mem_of_newest hn).1 (mem_of_newest hn).2]

/-- Some row has the key `i`: what a foreign key asks for. -/
def Has (t : Table R) (i : Nat) : Prop := ∃ r ∈ t.rows, rowId r = i

theorem Has.of_mem {t : Table R} {r : R} (h : r ∈ t.rows) : t.Has (rowId r) := ⟨r, h, rfl⟩

/-- A key that was used and is not in use does not come back. -/
theorem SuccOn.not_has {β : Type} {f : R → β} {t t' : Table R} {i : Nat} (hs : SuccOn f t t') (hi : i < t.nextId)
    (h : ¬ t.Has i) : ¬ t'.Has i := by
  rintro ⟨r, hr, rfl⟩
  rcases hs.rows r hr with ⟨x, hx, hid, -⟩ | hnew
  · exact h ⟨x, hx, hid⟩
  · omega

theorem has_iff_find {t : Table R} {i : Nat} : t.Has i ↔ (t.find i).isSome = true := by
  rw [Option.isSome_iff_exists]
  constructor
  · rintro ⟨r, hr, hi⟩
    exact ⟨r, find_eq_some_iff.2 ⟨hr, hi⟩⟩
  · rintro ⟨r, hr⟩
    exact ⟨r, mem_of_find hr⟩

/-! ## Insert -/

/-- `INSERT`: the row gets the next key; `none` when an index refuses it. -/
def insert (t : Table R) (r : R) : Option (Table R) :=
  if h : ∀ x ∈ t.rows, clash x (withId t.nextId r) = false then
    some
      { rows := t.rows ++ [withId t.nextId r]
        nextId := t.nextId + 1
        sorted := by
          simp only [List.pairwise_append, List.pairwise_singleton, List.mem_singleton, true_and]
          exact ⟨t.sorted, fun a ha b hb => by subst hb; simpa using t.below a ha⟩
        unclash := by
          simp only [List.pairwise_append, List.pairwise_singleton, List.mem_singleton, true_and]
          exact ⟨t.unclash, fun a ha b hb => by subst hb; exact h a ha⟩
        below := by
          intro x hx
          rcases List.mem_append.1 hx with hx | hx
          · exact Nat.lt_succ_of_lt (t.below x hx)
          · rw [List.mem_singleton.1 hx]; simp }
  else none

theorem insert_eq_some_iff {t t' : Table R} {r : R} :
    t.insert r = some t' ↔ (∀ x ∈ t.rows, clash x (withId t.nextId r) = false) ∧
      t'.rows = t.rows ++ [withId t.nextId r] ∧ t'.nextId = t.nextId + 1 := by
  unfold insert
  split
  · rename_i h
    constructor
    · intro he; cases he; exact ⟨h, rfl, rfl⟩
    · rintro ⟨-, h₁, h₂⟩
      cases t'; simp only at h₁ h₂; subst h₁ h₂; rfl
  · rename_i h; simp [h]

theorem rows_insert {t t' : Table R} {r : R} (h : t.insert r = some t') :
    t'.rows = t.rows ++ [withId t.nextId r] := (insert_eq_some_iff.1 h).2.1

theorem mem_insert {t t' : Table R} {r x : R} (h : t.insert r = some t') :
    x ∈ t'.rows ↔ x ∈ t.rows ∨ x = withId t.nextId r := by
  rw [rows_insert h]; simp

theorem countP_insert_le {t t' : Table R} {r : R} (p : R → Bool) (h : t.insert r = some t') :
    t'.rows.countP p ≤ t.rows.countP p + 1 := by
  rw [rows_insert h, List.countP_append]
  exact Nat.add_le_add_left List.countP_le_length _

theorem find_insert_of_some {t t' : Table R} {r x : R} {i : Nat} (h : t.insert r = some t')
    (hx : t.find i = some x) : t'.find i = some x := by
  rw [find_eq_some_iff] at hx ⊢
  exact ⟨(mem_insert h).2 (.inl hx.1), hx.2⟩

theorem Has.insert {t t' : Table R} {r : R} {i : Nat} (hi : t.Has i) (h : t.insert r = some t') : t'.Has i := by
  obtain ⟨x, hx, hid⟩ := hi
  exact ⟨x, (mem_insert h).2 (.inl hx), hid⟩

theorem filter_insert {t t' : Table R} {r : R} {p : R → Bool} (h : t.insert r = some t')
    (hp : p (withId t.nextId r) = false) : t'.rows.filter p = t.rows.filter p := by
  rw [rows_insert h, List.filter_append]
  simp [hp]

theorem succ_insert {t t' : Table R} {r : R} (h : t.insert r = some t') : Succ t t' := by
  obtain ⟨-, hrows, hnext⟩ := insert_eq_some_iff.1 h
  refine ⟨by omega, fun x hx => ?_⟩
  rcases (mem_insert h).1 hx with hx | rfl
  · exact .inl hx
  · exact .inr (by simp)

/-! ## Update -/

/-- `UPDATE ... WHERE id = i`: `f` gives the new columns; `none` when an
index refuses the new row. A missing row is no error. -/
def modify (t : Table R) (i : Nat) (f : R → R) : Option (Table R) :=
  if h : ∀ x ∈ t.rows, ∀ y ∈ t.rows, rowId x = i → rowId y ≠ i →
      clash (withId i (f x)) y = false then
    some
      { rows := t.rows.map fun r => if rowId r = i then withId i (f r) else r
        nextId := t.nextId
        sorted := by
          rw [List.pairwise_map]
          refine t.sorted.imp fun {a b} hab => ?_
          split <;> split <;> simp_all
        unclash := by
          rw [List.pairwise_map]
          refine (t.sorted.and t.unclash).imp_of_mem fun {a b} ha hb hab => ?_
          split <;> split
          · rename_i h₁ h₂; omega
          · rename_i h₁ h₂; exact h a ha b hb h₁ h₂
          · rename_i h₁ h₂; rw [Row.clash_comm]; exact h b hb a ha h₂ h₁
          · exact hab.2
        below := by
          intro x hx
          obtain ⟨r, hr, rfl⟩ := List.mem_map.1 hx
          split
          · rename_i hi; subst hi; simpa using t.below r hr
          · exact t.below r hr }
  else none

theorem rows_modify {t t' : Table R} {i : Nat} {f : R → R} (h : t.modify i f = some t') :
    t'.rows = t.rows.map fun r => if rowId r = i then withId i (f r) else r := by
  unfold modify at h; split at h
  · cases h; rfl
  · cases h

theorem nextId_modify {t t' : Table R} {i : Nat} {f : R → R} (h : t.modify i f = some t') : t'.nextId = t.nextId := by
  unfold modify at h; split at h
  · cases h; rfl
  · cases h

/-- An update that does not change what `p` looks at. -/
theorem countP_modify {t t' : Table R} {i : Nat} {f : R → R} {p : R → Bool} (h : t.modify i f = some t')
    (hp : ∀ r, p (withId i (f r)) = p r) : t'.rows.countP p = t.rows.countP p := by
  rw [rows_modify h, List.countP_map]
  refine List.countP_congr fun x _ => ?_
  simp only [Function.comp]
  split
  · rw [hp]
  · rfl

/-- An update that does not change which rows `p` selects. -/
theorem filter_modify_of_same {t t' : Table R} {i : Nat} {f : R → R} {p : R → Bool} (h : t.modify i f = some t')
    (hp : ∀ r ∈ t.rows, rowId r = i → p (withId i (f r)) = p r) :
    t'.rows.filter p = (t.rows.filter p).map fun r => if rowId r = i then withId i (f r) else r := by
  rw [rows_modify h, List.filter_map]
  congr 1
  refine List.filter_congr fun r hr => ?_
  simp only [Function.comp]
  split
  · exact hp r hr ‹_›
  · rfl

/-- An update of rows that `p` does not select, before or after. -/
theorem filter_modify {t t' : Table R} {i : Nat} {f : R → R} {p : R → Bool} (h : t.modify i f = some t')
    (hp : ∀ r ∈ t.rows, rowId r = i → p r = false ∧ p (withId i (f r)) = false) :
    t'.rows.filter p = t.rows.filter p := by
  rw [filter_modify_of_same h fun r hr hi => (hp r hr hi).2.trans (hp r hr hi).1.symm]
  conv_rhs => rw [← List.map_id (t.rows.filter p)]
  refine List.map_congr_left fun r hr => if_neg fun hi => ?_
  obtain ⟨hr, htrue⟩ := List.mem_filter.1 hr
  rw [(hp r hr hi).1] at htrue
  cases htrue

theorem mem_modify {t t' : Table R} {i : Nat} {f : R → R} {x : R} (h : t.modify i f = some t') :
    x ∈ t'.rows ↔ (x ∈ t.rows ∧ rowId x ≠ i) ∨ ∃ r ∈ t.rows, rowId r = i ∧ x = withId i (f r) := by
  rw [rows_modify h, List.mem_map]
  constructor
  · rintro ⟨r, hr, rfl⟩
    split
    · exact .inr ⟨r, hr, ‹_›, rfl⟩
    · exact .inl ⟨hr, ‹_›⟩
  · rintro (⟨hx, hi⟩ | ⟨r, hr, hi, rfl⟩)
    · exact ⟨x, hx, by rw [if_neg hi]⟩
    · exact ⟨r, hr, by rw [if_pos hi]⟩

/-- An update that leaves `f` alone. -/
theorem succOn_modify {β : Type} {f : R → β} {t t' : Table R} {i : Nat} {g : R → R} (h : t.modify i g = some t')
    (hf : ∀ x, rowId x = i → f (withId i (g x)) = f x) : SuccOn f t t' := by
  refine ⟨(nextId_modify h).ge, fun r hr => .inl ?_⟩
  rcases (mem_modify h).1 hr with ⟨hr, -⟩ | ⟨x, hx, hid, rfl⟩
  · exact ⟨r, hr, rfl, rfl⟩
  · exact ⟨x, hx, by rw [Row.rowId_withId, hid], (hf x hid).symm⟩

/-- An update keeps the keys. -/
theorem Has.modify {t t' : Table R} {i j : Nat} {f : R → R} (hj : t.Has j) (h : t.modify i f = some t') :
    t'.Has j := by
  obtain ⟨x, hx, hid⟩ := hj
  by_cases hi : rowId x = i
  · exact ⟨_, (mem_modify h).2 (.inr ⟨x, hx, hi, rfl⟩), by rw [Row.rowId_withId, ← hi, hid]⟩
  · exact ⟨x, (mem_modify h).2 (.inl ⟨hx, hi⟩), hid⟩

/-- An update leaves the other rows alone. -/
theorem find_modify_of_ne {t t' : Table R} {i j : Nat} {f : R → R} (h : t.modify i f = some t')
    (hne : j ≠ i) : t'.find j = t.find j := by
  ext x
  rw [find_eq_some_iff, find_eq_some_iff, mem_modify h]
  constructor
  · rintro ⟨⟨hx, -⟩ | ⟨r, -, -, rfl⟩, hj⟩
    · exact ⟨hx, hj⟩
    · exact absurd (hj.symm.trans (Row.rowId_withId i (f r))) hne
  · rintro ⟨hx, hj⟩
    exact ⟨.inl ⟨hx, fun he => hne (hj.symm.trans he)⟩, hj⟩

/-- The update goes through when the new row is in no other row's way. -/
theorem modify_eq_some_of {t : Table R} {i : Nat} {f : R → R}
    (h : ∀ x ∈ t.rows, ∀ y ∈ t.rows, rowId x = i → rowId y ≠ i → clash (withId i (f x)) y = false) :
    ∃ t', t.modify i f = some t' := by
  unfold modify; rw [dif_pos h]; exact ⟨_, rfl⟩

/-! ## One row written -/

/-- Every row of `t'` is `y`, or a row of `t` under another key. -/
def Writes (t t' : Table R) (y : R) : Prop := ∀ x ∈ t'.rows, x = y ∨ x ∈ t.rows ∧ rowId x ≠ rowId y

theorem writes_insert {t t' : Table R} {r : R} (h : t.insert r = some t') : Writes t t' (withId t.nextId r) := by
  intro x hx
  rcases (mem_insert h).1 hx with hx | hx
  · refine .inr ⟨hx, ?_⟩
    rw [Row.rowId_withId]
    exact Nat.ne_of_lt (t.below x hx)
  · exact .inl hx

theorem writes_modify {t t' : Table R} {r : R} {f : R → R} (hr : r ∈ t.rows) (h : t.modify (rowId r) f = some t') :
    Writes t t' (withId (rowId r) (f r)) := by
  intro x hx
  rcases (mem_modify h).1 hx with ⟨hx, hne⟩ | ⟨z, hz, hid, hx⟩
  · refine .inr ⟨hx, ?_⟩
    rw [Row.rowId_withId]
    exact hne
  · rw [t.eq_of_rowId hz hr hid] at hx
    exact .inl hx

/-- Rows of which no two are related stay so when a row is written that no
other is related to. -/
theorem Writes.unique {t t' : Table R} {y : R} {S : R → R → Prop} (h : Writes t t' y)
    (hsymm : ∀ {a b}, S a b → S b a) (hold : ∀ a ∈ t.rows, ∀ b ∈ t.rows, S a b → a = b)
    (hnew : ∀ b ∈ t.rows, rowId b ≠ rowId y → ¬ S b y) : ∀ a ∈ t'.rows, ∀ b ∈ t'.rows, S a b → a = b := by
  intro a ha b hb hab
  rcases h a ha with rfl | ⟨ha, hane⟩ <;> rcases h b hb with rfl | ⟨hb, hbne⟩
  · rfl
  · exact absurd (hsymm hab) (hnew b hb hbne)
  · exact absurd hab (hnew a ha hane)
  · exact hold a ha b hb hab

/-! ## Delete -/

/-- `DELETE ... WHERE p`. -/
def delete (t : Table R) (p : R → Bool) : Table R where
  rows := t.rows.filter fun r => !p r
  nextId := t.nextId
  sorted := t.sorted.filter _
  unclash := t.unclash.filter _
  below := fun r hr => t.below r (List.mem_filter.1 hr).1

theorem mem_delete {t : Table R} {p : R → Bool} {x : R} :
    x ∈ (t.delete p).rows ↔ x ∈ t.rows ∧ p x = false := by
  simp [delete, List.mem_filter]

theorem Has.delete {t : Table R} {i : Nat} {p : R → Bool} (hi : t.Has i)
    (hp : ∀ r ∈ t.rows, rowId r = i → p r = false) : (t.delete p).Has i := by
  obtain ⟨x, hx, hid⟩ := hi
  exact ⟨x, mem_delete.2 ⟨hx, hp x hx hid⟩, hid⟩

theorem succ_delete (t : Table R) (p : R → Bool) : Succ t (t.delete p) :=
  ⟨le_rfl, fun _ hx => .inl (mem_delete.1 hx).1⟩

theorem filter_delete {t : Table R} {p q : R → Bool} (h : ∀ r ∈ t.rows, q r = true → p r = false) :
    (t.delete q).rows.filter p = t.rows.filter p := by
  rw [delete, List.filter_filter]
  refine List.filter_congr fun r hr => ?_
  cases hq : q r with
  | false => simp
  | true => simp [h r hr hq]

/-- What is deleted is what a count loses. -/
theorem countP_delete (t : Table R) (p q : R → Bool) :
    t.rows.countP q = (t.delete p).rows.countP q + t.rows.countP fun x => p x && q x := by
  unfold delete
  rw [List.countP_eq_countP_filter_add t.rows _ p, List.countP_filter, Nat.add_comm]
  simp only [Bool.and_comm]

/-- A row that is deleted by its key counts once. -/
theorem countP_delete_row {t : Table R} {r : R} (hr : r ∈ t.rows) (q : R → Bool) :
    t.rows.countP q = (t.delete fun x => rowId x == rowId r).rows.countP q + if q r then 1 else 0 := by
  rw [countP_delete t (fun x => rowId x == rowId r) q]
  congr 1
  have hrow : ∀ x ∈ t.rows, (rowId x == rowId r && q x) = (rowId x == rowId r && q r) := by
    intro x hx
    by_cases hid : rowId x = rowId r
    · rw [t.eq_of_rowId hx hr hid]
    · rw [beq_eq_false_iff_ne.2 hid, Bool.false_and, Bool.false_and]
  rw [List.countP_congr fun x hx => by rw [hrow x hx]]
  cases q r with
  | true => simpa using countP_rowId hr
  | false => simp

theorem ext_rows {t t' : Table R} (hr : t.rows = t'.rows) (hn : t.nextId = t'.nextId) : t = t' := by
  cases t; cases t'; simp only at hr hn; subst hr hn; rfl

/-- An update that assigns a row what it holds leaves the table as it was. -/
theorem eq_of_modify_self {t t' : Table R} {i : Nat} {f : R → R} (h : t.modify i f = some t')
    (hself : ∀ x ∈ t.rows, rowId x = i → withId i (f x) = x) : t' = t := by
  refine ext_rows ?_ ?_
  · rw [rows_modify h]
    conv_rhs => rw [← List.map_id t.rows]
    refine List.map_congr_left fun x hx => ?_
    by_cases hid : rowId x = i
    · rw [if_pos hid, hself x hx hid]
      rfl
    · rw [if_neg hid]
      rfl
  · unfold modify at h
    split at h <;> cases h
    rfl

theorem delete_congr {t : Table R} {p q : R → Bool} (h : ∀ r ∈ t.rows, p r = q r) :
    t.delete p = t.delete q :=
  ext_rows (List.filter_congr fun r hr => by rw [h r hr]) rfl

theorem delete_delete (t : Table R) (p q : R → Bool) :
    (t.delete p).delete q = t.delete fun r => p r || q r := by
  refine ext_rows ?_ rfl
  simp only [delete, List.filter_filter, Bool.not_or, Bool.and_comm]

theorem delete_none {t : Table R} {p : R → Bool} (h : ∀ r ∈ t.rows, p r = false) : t.delete p = t :=
  ext_rows (List.filter_eq_self.2 fun r hr => by simp [h r hr]) rfl

/-- A row that is not deleted is still found. -/
theorem find_delete_of_some {t : Table R} {p : R → Bool} {x : R} {i : Nat} (hx : t.find i = some x)
    (hp : p x = false) : (t.delete p).find i = some x := by
  rw [find_eq_some_iff] at hx ⊢
  exact ⟨mem_delete.2 ⟨hx.1, hp⟩, hx.2⟩

end Table

end Insta.Core
