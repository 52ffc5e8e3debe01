import Mathlib.Data.List.Basic
import Mathlib.Data.List.TakeWhile

/-!
# Routers

A route is a verb, a pattern of literal segments and parameters, and what it
leads to. The first route of a table that fits a path decides. Paths are
texts: `url` writes segments with an optional format at the end, `readUrl`
reads them, so that empty segments do not count.

* `readUrl_url`: what is written is read back.
* `read_fill_isSome`: which paths of one pattern are paths of another, for
  patterns with at most one parameter.
* `recognise_url_cases`: the path of a route leads to that route, with the
  argument it was written with, or the argument is a word that an earlier
  route has as a literal there (`shadows`) and the path leads elsewhere.
-/
namespace Insta.Core.Router

/-! ## Paths -/

/-- A character that is written as it is in a segment. -/
def plain (c : Char) : Bool := c.isAlphanum || c == '-' || c == '_'

/-- A segment that needs no escaping. -/
def Plain (s : String) : Prop := s.toList ≠ [] ∧ ∀ c ∈ s.toList, plain c = true

instance (s : String) : Decidable (Plain s) :=
  decidable_of_iff (s.toList ≠ [] ∧ s.toList.all plain = true) (and_congr_right' List.all_eq_true)

def url (segs : List String) (format : Option String) : String :=
  String.ofList ('/' :: ['/'].intercalate (segs.map String.toList) ++
    (format.elim [] fun f => '.' :: f.toList))

/-- The last piece of a path and its format. -/
def readLast (s : List Char) : Option (String × Option String) :=
  match s.splitOn '.' with
  | [x] => some (.ofList x, none)
  | [x, f] => if x = [] ∨ f = [] then none else some (.ofList x, some (.ofList f))
  | _ => none

def readPieces : List (List Char) → Option (List String × Option String)
  | [] => some ([], none)
  | [s] => (readLast s).map fun p => ([p.1], p.2)
  | s :: rest => if '.' ∈ s then none else (readPieces rest).map fun p => (.ofList s :: p.1, p.2)

def readUrl (path : String) : Option (List String × Option String) :=
  readPieces ((path.toList.splitOn '/').filter (· ≠ []))

theorem Plain.not_mem {s : String} (h : Plain s) {c : Char} (hc : plain c = false) : c ∉ s.toList := by
  intro hmem
  rw [h.2 c hmem] at hc
  cases hc

theorem readLast_plain {s : String} (h : Plain s) : readLast s.toList = some (s, none) := by
  have hdot : ∀ l ∈ [s.toList], '.' ∉ l := by simpa using h.not_mem (by decide)
  have hsplit := List.splitOn_intercalate '.' hdot (List.cons_ne_nil _ _)
  rw [List.intercalate_singleton] at hsplit
  simp only [readLast, hsplit, String.ofList_toList]

theorem readLast_format {s f : String} (h : Plain s) (hf : Plain f) :
    readLast (s.toList ++ '.' :: f.toList) = some (s, some f) := by
  have hdots : ∀ l ∈ [s.toList, f.toList], '.' ∉ l := by
    simpa using ⟨h.not_mem (c := '.') (by decide), hf.not_mem (c := '.') (by decide)⟩
  have hsplit := List.splitOn_intercalate '.' hdots (List.cons_ne_nil _ _)
  rw [List.intercalate_cons_cons, List.intercalate_singleton, List.append_assoc, List.singleton_append] at hsplit
  simp only [readLast, hsplit, h.1, hf.1, or_self, if_false, String.ofList_toList]

/-- The pieces of a written path. -/
def pieces : List String → Option String → List (List Char)
  | [], _ => []
  | [s], format => [s.toList ++ format.elim [] fun f => '.' :: f.toList]
  | s :: rest, format => s.toList :: pieces rest format

theorem readPieces_pieces {segs : List String} {format : Option String} (hsegs : ∀ s ∈ segs, Plain s)
    (hformat : ∀ f, format = some f → Plain f) (hroot : segs = [] → format = none) :
    readPieces (pieces segs format) = some (segs, format) := by
  induction segs with
  | nil => rw [hroot rfl]; rfl
  | cons s rest ih =>
    have hs := hsegs s List.mem_cons_self
    cases rest with
    | nil =>
      cases format with
      | none =>
        simp only [pieces, readPieces, Option.elim_none, List.append_nil, readLast_plain hs, Option.map_some]
      | some f =>
        simp only [pieces, readPieces, Option.elim_some, readLast_format hs (hformat f rfl), Option.map_some]
    | cons x rest =>
      have hrest := ih (fun s hs => hsegs s (List.mem_cons_of_mem _ hs)) (fun h => by cases h)
      have hcons : pieces (x :: rest) format ≠ [] := by cases rest <;> simp [pieces]
      obtain ⟨y, ys, hys⟩ := List.exists_cons_of_ne_nil hcons
      rw [hys] at hrest
      simp only [pieces, hys, readPieces, if_neg (hs.not_mem (c := '.') (by decide)), hrest, Option.map_some,
        String.ofList_toList]

theorem intercalate_pieces (segs : List String) (format : Option String) (hne : segs ≠ []) :
    ['/'].intercalate (segs.map String.toList) ++ (format.elim [] fun f => '.' :: f.toList) =
      ['/'].intercalate (pieces segs format) := by
  induction segs with
  | nil => exact absurd rfl hne
  | cons s rest ih =>
    cases rest with
    | nil => simp only [List.map_cons, List.map_nil, pieces, List.intercalate_singleton]
    | cons x rest =>
      have hcons : pieces (x :: rest) format ≠ [] := by cases rest <;> simp [pieces]
      obtain ⟨y, ys, hys⟩ := List.exists_cons_of_ne_nil hcons
      have hrest := ih (List.cons_ne_nil _ _)
      rw [List.map_cons] at hrest
      simp only [List.map_cons, pieces]
      rw [hys] at hrest ⊢
      rw [List.intercalate_cons_cons, List.intercalate_cons_cons, ← hrest]
      simp only [List.append_assoc]

/-- What stands between the slashes. -/
theorem mem_pieces {segs : List String} {format : Option String} (hsegs : ∀ s ∈ segs, Plain s)
    (hformat : ∀ f, format = some f → Plain f) {l : List Char} (h : l ∈ pieces segs format) :
    l ≠ [] ∧ '/' ∉ l := by
  induction segs with
  | nil => cases h
  | cons s rest ih =>
    have hs := hsegs s List.mem_cons_self
    cases rest with
    | nil =>
      rw [pieces, List.mem_singleton] at h
      subst h
      refine ⟨by simp [hs.1], ?_⟩
      rw [List.mem_append, not_or]
      refine ⟨hs.not_mem (by decide), ?_⟩
      cases format with
      | none => exact List.not_mem_nil
      | some f =>
        rw [Option.elim_some, List.mem_cons, not_or]
        exact ⟨by decide, (hformat f rfl).not_mem (by decide)⟩
    | cons x rest =>
      rcases List.mem_cons.1 h with rfl | h
      · exact ⟨hs.1, hs.not_mem (by decide)⟩
      · exact ih (fun s hs => hsegs s (List.mem_cons_of_mem _ hs)) h

theorem readUrl_url {segs : List String} {format : Option String} (hsegs : ∀ s ∈ segs, Plain s)
    (hformat : ∀ f, format = some f → Plain f) (hroot : segs = [] → format = none) :
    readUrl (url segs format) = some (segs, format) := by
  unfold readUrl url
  rw [String.toList_ofList]
  by_cases hne : segs = []
  · subst hne
    rw [hroot rfl]
    rfl
  · have hcut : ('/' :: ['/'].intercalate (pieces segs format)).splitOn '/' = [] :: pieces segs format := by
      have hcons : pieces segs format ≠ [] := by
        cases segs with
        | nil => exact absurd rfl hne
        | cons s rest => cases rest <;> simp [pieces]
      obtain ⟨y, ys, hys⟩ := List.exists_cons_of_ne_nil hcons
      have hall : ∀ l ∈ [] :: pieces segs format, '/' ∉ l := by
        intro l hl
        rcases List.mem_cons.1 hl with rfl | hl
        · exact List.not_mem_nil
        · exact (mem_pieces hsegs hformat hl).2
      have hsplit := List.splitOn_intercalate '/' hall (List.cons_ne_nil _ _)
      rw [hys, List.intercalate_cons_cons, List.nil_append, List.singleton_append] at hsplit
      rw [hys, hsplit]
    rw [List.cons_append, intercalate_pieces segs format hne, hcut, List.filter_cons_of_neg (by simp)]
    rw [List.filter_eq_self.2 fun l hl => by simpa using (mem_pieces hsegs hformat hl).1]
    exact readPieces_pieces hsegs hformat hroot

/-! ## Patterns -/

inductive Seg
  | lit (s : String)
  | param
  deriving DecidableEq, Repr

def arity (p : List Seg) : Nat := p.count .param

/-- The segments of a path of the pattern. -/
def fill : List Seg → List String → List String
  | [], _ => []
  | .lit s :: p, args => s :: fill p args
  | .param :: p, args => args.headD "" :: fill p args.tail

/-- The arguments of a path, if it is one of the pattern. -/
def read : List Seg → List String → Option (List String)
  | [], [] => some []
  | .lit s :: p, x :: xs => if x = s then read p xs else none
  | .param :: p, x :: xs => (read p xs).map (x :: ·)
  | _, _ => none

theorem read_fill {p : List Seg} {args : List String} (h : args.length = arity p) :
    read p (fill p args) = some args := by
  induction p generalizing args with
  | nil => rw [List.length_eq_zero_iff.1 h]; rfl
  | cons s p ih =>
    cases s with
    | lit s => simp only [fill, read, if_true, ih (show args.length = arity p by simpa [arity] using h)]
    | param =>
      cases args with
      | nil => simp [arity] at h
      | cons x xs =>
        have hxs : xs.length = arity p := by simpa [arity] using h
        simp only [fill, read, List.headD_cons, List.tail_cons, ih hxs, Option.map_some]

/-- For which arguments of the one is a path of a pattern a path of another
one, too. -/
inductive Meet
  | never | always | at_ (s : String)
  deriving DecidableEq, Repr

def Meet.holds (args : List String) : Meet → Bool
  | .never => false
  | .always => true
  | .at_ s => args == [s]

def meet : List Seg → List Seg → Meet
  | [], [] => .always
  | .lit s :: p, .lit t :: q => if s = t then meet p q else .never
  | .lit s :: p, .param :: q => if meet p q = .always then .at_ s else .never
  | .param :: p, _ :: q => meet p q
  | _, _ => .never

/-- Without a parameter there is nothing to depend on. -/
theorem meet_ne_at {p q : List Seg} (h : arity q = 0) (s : String) : meet p q ≠ .at_ s := by
  induction p generalizing q with
  | nil => cases q <;> simp [meet]
  | cons a p ih =>
    cases q with
    | nil => cases a <;> simp [meet]
    | cons b q =>
      cases b with
      | param => simp [arity] at h
      | lit t =>
        have hq : arity q = 0 := by simpa [arity] using h
        cases a with
        | lit s' =>
          simp only [meet]
          split
          · exact ih hq
          · simp
        | param => exact ih hq

theorem read_fill_isSome {p q : List Seg} {args : List String} (hq : arity q ≤ 1) (h : args.length = arity q) :
    (read p (fill q args)).isSome = (meet p q).holds args := by
  induction p generalizing q args with
  | nil => cases q with
    | nil => rfl
    | cons b q => cases b <;> rfl
  | cons a p ih =>
    cases q with
    | nil => cases a <;> rfl
    | cons b q =>
      cases b with
      | lit t =>
        have hq' : arity q ≤ 1 := by simpa [arity] using hq
        have h' : args.length = arity q := by simpa [arity] using h
        cases a with
        | lit s =>
          simp only [fill, read, meet]
          by_cases hst : s = t
          · rw [if_pos hst, if_pos hst.symm, ih hq' h']
          · rw [if_neg hst, if_neg (Ne.symm hst)]
            rfl
        | param => simp only [fill, read, meet, Option.isSome_map, ih hq' h']
      | param =>
        have hzero : arity q = 0 := by
          have : arity q + 1 ≤ 1 := by simpa [arity] using hq
          omega
        obtain ⟨x, rfl⟩ := List.length_eq_one_iff.1 (show args.length = 1 by rw [h, arity, List.count_cons_self,
          show q.count .param = 0 from hzero])
        have hrest := @ih q [] (show arity q ≤ 1 by omega) hzero.symm
        have hholds : ∀ as, (meet p q).holds as = decide (meet p q = .always) := by
          intro as
          cases hm : meet p q with
          | at_ s => exact absurd hm (meet_ne_at hzero s)
          | never => rfl
          | always => rfl
        cases a with
        | lit s =>
          simp only [fill, read, meet, List.headD_cons, List.tail_cons]
          by_cases hx : x = s
          · rw [if_pos hx, hrest, hholds, hx]
            by_cases hm : meet p q = .always
            · rw [if_pos hm]; simp [hm, Meet.holds]
            · rw [if_neg hm]; simp [hm, Meet.holds]
          · rw [if_neg hx]
            by_cases hm : meet p q = .always
            · rw [if_pos hm]; simp [Meet.holds, hx]
            · rw [if_neg hm]; rfl
        | param =>
          simp only [fill, read, meet, List.tail_cons, Option.isSome_map, hrest, hholds]

/-! ## Tables -/

structure Route (V E : Type) where
  verb : V
  pattern : List Seg
  endpoint : E
  deriving DecidableEq, Repr

structure Hit (E : Type) where
  endpoint : E
  args : List String
  format : Option String
  deriving DecidableEq, Repr

variable {V E : Type} [DecidableEq V]

/-- The first route that fits. -/
def lookup (t : List (Route V E)) (v : V) (segs : List String) : Option (E × List String) :=
  t.findSome? fun r => if r.verb = v then (read r.pattern segs).map fun args => (r.endpoint, args) else none

def recognise (t : List (Route V E)) (v : V) (path : String) : Option (Hit E) :=
  (readUrl path).bind fun p => (lookup t v p.1).map fun q => ⟨q.1, q.2, p.2⟩

/-- The words the routes `pre` have where `r` has its parameter. -/
def shadows (pre : List (Route V E)) (r : Route V E) : List String :=
  pre.filterMap fun p =>
    if p.verb = r.verb then
      match meet p.pattern r.pattern with
      | .at_ s => some s
      | _ => none
    else none

/-- No route of `pre` takes all paths of `r`, and those that take some lead
elsewhere. -/
def Clear (pre : List (Route V E)) (r : Route V E) : Prop :=
  ∀ p ∈ pre, p.verb = r.verb → meet p.pattern r.pattern ≠ .always ∧
    (meet p.pattern r.pattern ≠ .never → p.endpoint ≠ r.endpoint)

instance [DecidableEq E] (pre : List (Route V E)) (r : Route V E) : Decidable (Clear pre r) :=
  decidable_of_iff (pre.all (fun p => decide (p.verb = r.verb → meet p.pattern r.pattern ≠ .always ∧
    (meet p.pattern r.pattern ≠ .never → p.endpoint ≠ r.endpoint))) = true)
    (by simp only [Clear, List.all_eq_true, decide_eq_true_eq])

theorem lookup_some {t : List (Route V E)} {v : V} {segs args : List String} {e : E}
    (h : lookup t v segs = some (e, args)) :
    ∃ p ∈ t, p.verb = v ∧ read p.pattern segs = some args ∧ p.endpoint = e := by
  obtain ⟨p, hp, hfit⟩ := List.exists_of_findSome?_eq_some h
  rw [Option.ite_none_right_eq_some] at hfit
  obtain ⟨as, hread, he⟩ := Option.map_eq_some_iff.1 hfit.2
  cases he
  exact ⟨p, hp, hfit.1, hread, rfl⟩

theorem lookup_eq_none_iff {t : List (Route V E)} {v : V} {segs : List String} :
    lookup t v segs = none ↔ ∀ p ∈ t, p.verb = v → read p.pattern segs = none := by
  unfold lookup
  rw [List.findSome?_eq_none_iff]
  refine forall₂_congr fun p _ => ?_
  by_cases hv : p.verb = v
  · simp [hv]
  · simp [hv]

/-- Which arguments an earlier route takes. -/
theorem lookup_fill_eq_none_iff {pre : List (Route V E)} {r : Route V E} {args : List String} (hclear : Clear pre r)
    (harity : arity r.pattern ≤ 1) (hargs : args.length = arity r.pattern) :
    lookup pre r.verb (fill r.pattern args) = none ↔ ∀ x ∈ args, x ∉ shadows pre r := by
  have hmeet : ∀ p, read p (fill r.pattern args) = none ↔ (meet p r.pattern).holds args = false := by
    intro p
    rw [← read_fill_isSome harity hargs, Option.isSome_eq_false_iff, Option.isNone_iff_eq_none]
  rw [lookup_eq_none_iff]
  constructor
  · intro h x hx hword
    obtain ⟨p, hp, hfit⟩ := List.mem_filterMap.1 hword
    rw [Option.ite_none_right_eq_some] at hfit
    have hno := (hmeet _).1 (h p hp hfit.1)
    have hone : args = [x] := by
      obtain ⟨y, hy⟩ : ∃ y, args = [y] :=
        List.length_eq_one_iff.1 (Nat.le_antisymm (hargs ▸ harity) (List.length_pos_of_mem hx))
      rw [hy, List.mem_singleton] at hx
      rw [hy, hx]
    cases hm : meet p.pattern r.pattern with
    | never => rw [hm] at hfit; cases hfit.2
    | always => rw [hm] at hfit; cases hfit.2
    | at_ s =>
      rw [hm] at hfit hno
      rw [Option.some.inj hfit.2, hone, Meet.holds, beq_self_eq_true] at hno
      cases hno
  · intro h p hp hv
    rw [hmeet]
    cases hm : meet p.pattern r.pattern with
    | never => rfl
    | always => exact absurd hm (hclear p hp hv).1
    | at_ s =>
      rw [Meet.holds, beq_eq_false_iff_ne]
      intro hone
      exact h s (by rw [hone]; exact List.mem_singleton_self s) (List.mem_filterMap.2 ⟨p, hp, by rw [if_pos hv, hm]⟩)

/-- The path of a route leads to it, or is taken by an earlier route, which
leads elsewhere. -/
theorem lookup_fill_cases {pre post : List (Route V E)} {r : Route V E} {args : List String} (hclear : Clear pre r)
    (harity : arity r.pattern ≤ 1) (hargs : args.length = arity r.pattern) :
    ((∀ x ∈ args, x ∉ shadows pre r) ∧
      lookup (pre ++ r :: post) r.verb (fill r.pattern args) = some (r.endpoint, args)) ∨
    (¬ (∀ x ∈ args, x ∉ shadows pre r) ∧
      ∃ e as, e ≠ r.endpoint ∧ lookup (pre ++ r :: post) r.verb (fill r.pattern args) = some (e, as)) := by
  rw [← lookup_fill_eq_none_iff hclear harity hargs]
  have hself : lookup (r :: post) r.verb (fill r.pattern args) = some (r.endpoint, args) := by
    unfold lookup
    rw [List.findSome?_cons, if_pos rfl, read_fill hargs]
    rfl
  have happend : lookup (pre ++ r :: post) r.verb (fill r.pattern args) =
      (lookup pre r.verb (fill r.pattern args)).or (some (r.endpoint, args)) := by
    rw [← hself]
    exact List.findSome?_append
  rw [happend]
  cases hpre : lookup pre r.verb (fill r.pattern args) with
  | none => exact .inl ⟨rfl, rfl⟩
  | some hit =>
    obtain ⟨e, as⟩ := hit
    obtain ⟨p, hp, hv, hread, rfl⟩ := lookup_some hpre
    have hsome : (meet p.pattern r.pattern).holds args = true := by
      rw [← read_fill_isSome harity hargs, hread]
      rfl
    refine .inr ⟨Option.some_ne_none _, p.endpoint, as, (hclear p hp hv).2 fun hnever => ?_, rfl⟩
    rw [hnever] at hsome
    cases hsome

/-- The literals of a pattern need no escaping. -/
def literals (p : List Seg) : List String :=
  p.filterMap fun
    | .lit s => some s
    | .param => none

theorem mem_fill {p : List Seg} {args : List String} (hargs : args.length = arity p) {x : String}
    (h : x ∈ fill p args) : x ∈ literals p ∨ x ∈ args := by
  induction p generalizing args with
  | nil => cases h
  | cons s p ih =>
    cases s with
    | lit s =>
      rcases List.mem_cons.1 h with rfl | h
      · exact .inl (by simp [literals])
      · exact (ih (by simpa [arity] using hargs) h).imp_left fun hx => by simp [literals] at hx ⊢; exact .inr hx
    | param =>
      cases args with
      | nil => simp [arity] at hargs
      | cons y ys =>
        rcases List.mem_cons.1 h with rfl | h
        · exact .inr List.mem_cons_self
        · exact (ih (by simpa [arity] using hargs) h).imp (fun hx => by simpa [literals] using hx)
            (List.mem_cons_of_mem _)

/-- The routes before `r`. -/
def before [DecidableEq E] (t : List (Route V E)) (r : Route V E) : List (Route V E) := t.takeWhile fun p => p ≠ r

theorem split_before [DecidableEq E] {t : List (Route V E)} {r : Route V E} (h : r ∈ t) :
    ∃ post, t = before t r ++ r :: post := by
  induction t with
  | nil => cases h
  | cons p t ih =>
    by_cases hp : p = r
    · exact ⟨t, by simp [before, hp]⟩
    · obtain ⟨post, hpost⟩ := ih ((List.mem_cons.1 h).resolve_left (Ne.symm hp))
      refine ⟨post, ?_⟩
      rw [before, List.takeWhile_cons_of_pos (by simpa using hp), List.cons_append]
      exact congrArg (p :: ·) hpost

theorem recognise_url_cases [DecidableEq E] {t : List (Route V E)} {r : Route V E} {args : List String}
    {format : Option String} (hr : r ∈ t) (hclear : Clear (before t r) r)
    (hlits : ∀ s ∈ literals r.pattern, Plain s) (harity : arity r.pattern ≤ 1)
    (hargs : args.length = arity r.pattern) (hplain : ∀ x ∈ args, Plain x)
    (hformat : ∀ f, format = some f → Plain f) (hroot : r.pattern = [] → format = none) :
    ((∀ x ∈ args, x ∉ shadows (before t r) r) ∧
      recognise t r.verb (url (fill r.pattern args) format) = some ⟨r.endpoint, args, format⟩) ∨
    (¬ (∀ x ∈ args, x ∉ shadows (before t r) r) ∧
      ∃ hit, hit.endpoint ≠ r.endpoint ∧ recognise t r.verb (url (fill r.pattern args) format) = some hit) := by
  have hsegs : ∀ s ∈ fill r.pattern args, Plain s := fun s hs => (mem_fill hargs hs).elim (hlits s) (hplain s)
  have hnil : fill r.pattern args = [] → format = none := by
    intro h
    refine hroot ?_
    cases hp : r.pattern with
    | nil => rfl
    | cons s p => rw [hp] at h; cases s <;> cases h
  have hread : ∀ {q}, lookup t r.verb (fill r.pattern args) = some q →
      recognise t r.verb (url (fill r.pattern args) format) = some ⟨q.1, q.2, format⟩ := by
    intro q hq
    unfold recognise
    rw [readUrl_url hsegs hformat hnil, Option.bind_some, hq]
    rfl
  obtain ⟨post, hpost⟩ := split_before hr
  have hcases := @lookup_fill_cases _ _ _ _ post r args hclear harity hargs
  rw [← hpost] at hcases
  rcases hcases with ⟨hfree, hq⟩ | ⟨htaken, e, as, hne, hq⟩
  · exact .inl ⟨hfree, hread hq⟩
  · exact .inr ⟨htaken, _, hne, hread hq⟩

end Insta.Core.Router
