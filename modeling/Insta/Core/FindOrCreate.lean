import Insta.Core.Threads

/-!
# Find-or-create in two steps

Each delivery looks a record up and saves it in a later step: an update when
the lookup found a record, an insert when it was empty. Nothing holds the
two together, so an empty lookup can be stale by the time of its save.

`FindOrCreate.at_most_one`: at most one record in every run in which no
delivery's lookup comes up empty while another one is between its empty
lookup and its save.
-/
namespace Insta.Core

/-- Where a delivery is; `L` is what a lookup loaded. -/
inductive Finder (D L : Type)
  | start (d : D)
  | looked (d : D) (l : L)
  | done
  deriving DecidableEq

/-- `look` is `none` when the delivery stops there; `fresh` says that a
lookup came up empty. -/
structure FindOrCreate (S D L : Type) where
  look : S → D → Option L
  save : S → D → L → S
  fresh : L → Bool

namespace FindOrCreate

variable {S D L : Type}

def step (P : FindOrCreate S D L) (s : S) : Finder D L → Option (S × Finder D L)
  | .start d =>
    match P.look s d with
    | none => some (s, .done)
    | some l => some (s, .looked d l)
  | .looked d l => some (P.save s d l, .done)
  | .done => none

/-- Past an empty lookup and not saved. -/
def creates (P : FindOrCreate S D L) : Finder D L → Bool
  | .looked _ l => P.fresh l
  | _ => false

def pending (P : FindOrCreate S D L) (s : Sys S (Finder D L)) : Nat := s.threads.countP P.creates

/-- What the two steps do to the records, as long as `I` holds; `ok` is what
a lookup guarantees about what it loaded. -/
structure Lawful (P : FindOrCreate S D L) (count : S → Nat) (I : S → Prop) (ok : L → Prop) : Prop where
  look_fresh : ∀ s d l, I s → P.look s d = some l → P.fresh l = true → count s = 0
  look_ok : ∀ s d l, I s → P.look s d = some l → ok l
  save_keeps : ∀ s d l, I s → ok l → I (P.save s d l)
  save_found : ∀ s d l, I s → ok l → P.fresh l = false → count (P.save s d l) ≤ count s
  save_new : ∀ s d l, I s → ok l → P.fresh l = true → count (P.save s d l) ≤ count s + 1

/-- At most one record, and deliveries that have not begun. -/
def Start (count : S → Nat) (I : S → Prop) (s : Sys S (Finder D L)) : Prop :=
  I s.shared ∧ count s.shared ≤ 1 ∧ ∀ t ∈ s.threads, ∃ d, t = .start d

def system (P : FindOrCreate S D L) (count : S → Nat) (I : S → Prop) : LTS (Sys S (Finder D L)) Nat :=
  interleave (Start count I) P.step

/-- A lookup comes up empty only while no other delivery is about to
create. -/
def Exclusive (P : FindOrCreate S D L) (s : Sys S (Finder D L)) (i : Nat) : Prop :=
  ∀ d l, s.threads[i]? = some (.start d) → P.look s.shared d = some l → P.fresh l = true → P.pending s = 0

section

variable {P : FindOrCreate S D L} {count : S → Nat} {I : S → Prop} {ok : L → Prop}

/-- The record there is and the one about to be created are one. -/
structure Inv (P : FindOrCreate S D L) (count : S → Nat) (I : S → Prop) (ok : L → Prop)
    (s : Sys S (Finder D L)) : Prop where
  shared : I s.shared
  loaded : ∀ d l, .looked d l ∈ s.threads → ok l
  room : count s.shared + P.pending s ≤ 1

theorem loaded_set {threads : List (Finder D L)} {i : Nat} {t' : Finder D L}
    (h : ∀ d l, .looked d l ∈ threads → ok l) (ht' : ∀ d l, t' = .looked d l → ok l) :
    ∀ d l, .looked d l ∈ threads.set i t' → ok l := by
  intro d l hm
  rcases List.mem_or_eq_of_mem_set hm with hm | hm
  · exact h d l hm
  · exact ht' d l hm.symm

theorem inv_step (hP : P.Lawful count I ok) {s s' : Sys S (Finder D L)} {i : Nat} (hi : Inv P count I ok s)
    (hg : P.Exclusive s i) (h : fire P.step s i = some s') : Inv P count I ok s' := by
  obtain ⟨t, x, t', ht, hstep, rfl⟩ := fire_cases h
  have hcount : (s.threads.set i t').countP P.creates + (P.creates t).toNat =
      s.threads.countP P.creates + (P.creates t').toNat := countP_threads ht _ P.creates
  have hroom := hi.room
  unfold pending at hroom
  cases t with
  | start d =>
    simp only [step] at hstep
    split at hstep
    · cases hstep
      refine ⟨hi.shared, loaded_set hi.loaded (by simp), ?_⟩
      simp only [pending, creates, Bool.toNat_false] at hcount ⊢
      omega
    · rename_i l hl
      cases hstep
      refine ⟨hi.shared, loaded_set hi.loaded ?_, ?_⟩
      · rintro d' l' he
        cases he
        exact hP.look_ok _ d l hi.shared hl
      · cases hf : P.fresh l with
        | false =>
          simp only [pending, creates, hf, Bool.toNat_false] at hcount ⊢
          omega
        | true =>
          -- an empty lookup: no record, and nobody else about to create one
          have hzero := hP.look_fresh _ d l hi.shared hl hf
          have hnone := hg d l ht hl hf
          simp only [pending, creates, hf, Bool.toNat_false, Bool.toNat_true] at hcount hnone ⊢
          omega
  | looked d l =>
    have hok := hi.loaded d l (List.mem_of_getElem? ht)
    cases hstep
    refine ⟨hP.save_keeps _ d l hi.shared hok, loaded_set hi.loaded (by simp), ?_⟩
    cases hf : P.fresh l with
    | false =>
      have hle := hP.save_found _ d l hi.shared hok hf
      simp only [pending, creates, hf, Bool.toNat_false] at hcount ⊢
      omega
    | true =>
      have hle := hP.save_new _ d l hi.shared hok hf
      simp only [pending, creates, hf, Bool.toNat_false, Bool.toNat_true] at hcount ⊢
      omega
  | done => cases hstep

theorem at_most_one (hP : P.Lawful count I ok) {s : Sys S (Finder D L)}
    (h : ((P.system count I).guard P.Exclusive).Reachable s) : count s.shared ≤ 1 := by
  have hind : ((P.system count I).guard P.Exclusive).Inductive (Inv P count I ok) := by
    refine ⟨fun s hs => ?_, fun s i s' hi hst => inv_step hP hi hst.2 hst.1⟩
    obtain ⟨hI, hone, hstart⟩ := hs
    refine ⟨hI, fun d l hm => ?_, ?_⟩
    · obtain ⟨d', hd'⟩ := hstart _ hm
      cases hd'
    · have hnone : P.pending s = 0 := List.countP_eq_zero.2 fun t ht => by
        obtain ⟨d, rfl⟩ := hstart t ht
        simp [creates]
      omega
  have := (hind.reachable s h).room
  omega

end

end FindOrCreate

end Insta.Core
