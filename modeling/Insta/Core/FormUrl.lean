import Mathlib.Data.List.Sort

/-!
# Form encoding of byte strings

`escape` and `unescape` are the byte-level form encoding, `toQuery` writes
fields as sorted `key=value` pairs, `parse` reads a query with `&` and `;`
as separators and keeps keys without a value apart, `fields` reads one with
`&` alone.

* `unescape_escape`: what is escaped is read back.
* `safe_of_mem_escape`: no escaped byte is a separator or a control byte.
* `fields_joined`, `fields_toQuery`: the written fields, and no others, are
  read back.
* `parse_joined`: the same in their order, for the reader with both
  separators.
* `toQuery_eq_joined`: the sorted query is that of another order;
  `lookup_of_mem`, `firstValue_of_mem`: with distinct keys the order does
  not matter to who looks a key up.
-/
namespace Insta.Core.FormUrl

abbrev Bytes := List UInt8

/-- The bytes of an ASCII text. -/
def ascii (s : String) : Bytes := s.toList.map fun c => .ofNat c.toNat

def percent : UInt8 := 37
def amp : UInt8 := 38
def plus : UInt8 := 43
def semicolon : UInt8 := 59
def equals : UInt8 := 61

def hexDigit (n : Nat) : UInt8 := if n < 10 then .ofNat (n + 48) else .ofNat (n + 55)

def hexValue (b : UInt8) : Option Nat :=
  if 48 ≤ b.toNat ∧ b.toNat ≤ 57 then some (b.toNat - 48)
  else if 65 ≤ b.toNat ∧ b.toNat ≤ 70 then some (b.toNat - 55)
  else if 97 ≤ b.toNat ∧ b.toNat ≤ 102 then some (b.toNat - 87)
  else none

/-- Letters, digits and the four marks that stay as they are. -/
def unreserved (b : UInt8) : Bool :=
  48 ≤ b.toNat && b.toNat ≤ 57 || 65 ≤ b.toNat && b.toNat ≤ 90 || 97 ≤ b.toNat && b.toNat ≤ 122 ||
    b == 45 || b == 46 || b == 95 || b == 126

def escapeByte (b : UInt8) : Bytes :=
  if unreserved b then [b]
  else if b = 32 then [plus]
  else [percent, hexDigit (b.toNat / 16), hexDigit (b.toNat % 16)]

def escape (s : Bytes) : Bytes := s.flatMap escapeByte

def unescapePlus (b : UInt8) : UInt8 := if b = plus then 32 else b

/-- The byte three bytes stand for, if they are a percent sign and two
digits. -/
def unescapeHex (p h l : UInt8) : Option UInt8 :=
  if p = percent then
    match hexValue h, hexValue l with
    | some x, some y => some (.ofNat (x * 16 + y))
    | _, _ => none
  else none

def unescape : Bytes → Bytes
  | p :: h :: l :: rest =>
    match unescapeHex p h l with
    | some b => b :: unescape rest
    | none => unescapePlus p :: unescape (h :: l :: rest)
  | b :: rest => unescapePlus b :: unescape rest
  | [] => []

/-! ## Escaping -/

theorem hexValue_hexDigit : ∀ n < 16, hexValue (hexDigit n) = some n := by decide

theorem unescape_cons_of_ne {b : UInt8} (h : b ≠ percent) (rest : Bytes) :
    unescape (b :: rest) = unescapePlus b :: unescape rest := by
  match rest with
  | [] => rfl
  | [_] => rfl
  | _ :: _ :: _ => simp only [unescape, unescapeHex, h, if_false]

theorem unescape_escapeByte (b : UInt8) (rest : Bytes) :
    unescape (escapeByte b ++ rest) = b :: unescape rest := by
  unfold escapeByte
  split
  · rename_i hb
    have hpercent : b ≠ percent := by rintro rfl; exact absurd hb (by decide)
    have hplus : b ≠ plus := by rintro rfl; exact absurd hb (by decide)
    rw [List.singleton_append, unescape_cons_of_ne hpercent, unescapePlus, if_neg hplus]
  · split
    · rename_i hb
      rw [List.singleton_append, unescape_cons_of_ne (by decide), hb]
      rfl
    · have hb := b.toNat_lt
      have hhex : unescapeHex percent (hexDigit (b.toNat / 16)) (hexDigit (b.toNat % 16)) = some b := by
        simp only [unescapeHex, if_true, hexValue_hexDigit _ (show b.toNat / 16 < 16 by omega),
          hexValue_hexDigit _ (show b.toNat % 16 < 16 by omega)]
        rw [show b.toNat / 16 * 16 + b.toNat % 16 = b.toNat by omega, UInt8.ofNat_toNat]
      simp only [List.cons_append, List.nil_append, unescape, hhex]

theorem unescape_escape (s : Bytes) : unescape (escape s) = s := by
  induction s with
  | nil => rfl
  | cons b s ih =>
    show unescape (escapeByte b ++ escape s) = b :: s
    rw [unescape_escapeByte, ih]

theorem escape_of_unreserved {s : Bytes} (h : ∀ b ∈ s, unreserved b = true) : escape s = s := by
  induction s with
  | nil => rfl
  | cons b s ih =>
    show escapeByte b ++ escape s = b :: s
    rw [escapeByte, if_pos (h b List.mem_cons_self), ih fun c hc => h c (List.mem_cons_of_mem _ hc),
      List.singleton_append]

/-- The bytes an escaped text is made of. -/
def safe (b : UInt8) : Bool := unreserved b || b == plus || b == percent

theorem safe_hexDigit : ∀ n < 16, safe (hexDigit n) = true := by decide

theorem safe_of_mem_escape {s : Bytes} {b : UInt8} (h : b ∈ escape s) : safe b = true := by
  obtain ⟨a, -, hb⟩ := List.mem_flatMap.1 h
  unfold escapeByte at hb
  split at hb
  · rename_i ha
    rw [List.mem_singleton.1 hb, safe, ha, Bool.true_or, Bool.true_or]
  · split at hb
    · rw [List.mem_singleton.1 hb]
      rfl
    · have ha := a.toNat_lt
      simp only [List.mem_cons, List.not_mem_nil, or_false] at hb
      obtain rfl | rfl | rfl := hb
      · rfl
      · exact safe_hexDigit _ (by omega)
      · exact safe_hexDigit _ (by omega)

theorem not_mem_escape {b : UInt8} (h : safe b = false) (s : Bytes) : b ∉ escape s :=
  fun hb => absurd (safe_of_mem_escape hb) (by rw [h]; exact Bool.false_ne_true)

/-- Printable ASCII without the space. -/
def visible (b : UInt8) : Bool := 33 ≤ b.toNat && b.toNat ≤ 126

theorem visible_of_unreserved {b : UInt8} (h : unreserved b = true) : visible b = true := by
  simp only [unreserved, visible, Bool.or_eq_true, Bool.and_eq_true, decide_eq_true_eq, beq_iff_eq] at h ⊢
  obtain (((((h | h) | h) | rfl) | rfl) | rfl) | rfl := h
  · omega
  · omega
  · omega
  all_goals decide

theorem visible_of_mem_escape {s : Bytes} {b : UInt8} (h : b ∈ escape s) : visible b = true := by
  have hsafe := safe_of_mem_escape h
  simp only [safe, Bool.or_eq_true, beq_iff_eq] at hsafe
  obtain (hb | rfl) | rfl := hsafe
  · exact visible_of_unreserved hb
  · rfl
  · rfl

/-! ## Fields -/

/-- The text before the first `=`, and the text after it if there is one. -/
def splitPair (s : Bytes) : Bytes × Option Bytes :=
  (s.takeWhile (· != equals), (s.dropWhile (· != equals)).tail?)

def pair (f : Bytes × Bytes) : Bytes := escape f.1 ++ equals :: escape f.2

def joined (l : List (Bytes × Bytes)) : Bytes := [amp].intercalate (l.map pair)

def toQuery (l : List (Bytes × Bytes)) : Bytes :=
  [amp].intercalate ((l.map pair).insertionSort (· ≤ ·))

def readPair (s : Bytes) : Bytes × Bytes := (unescape (splitPair s).1, unescape ((splitPair s).2.getD []))

def fields (q : Bytes) : List (Bytes × Bytes) := (q.splitOn amp).map readPair

def separator (b : UInt8) : Bool := b == amp || b == semicolon

/-- Pieces without a byte name no key. -/
def parse (q : Bytes) : List (Bytes × Option Bytes) :=
  ((q.splitOnP separator).filter (· ≠ [])).map fun s =>
    (unescape (splitPair s).1, (splitPair s).2.map unescape)

/-- The first value given for a key. -/
def firstValue (key : Bytes) (l : List (Bytes × Option Bytes)) : Option Bytes :=
  l.findSome? fun f => if f.1 = key then f.2 else none

theorem splitPair_pair (f : Bytes × Bytes) : splitPair (pair f) = (escape f.1, some (escape f.2)) := by
  have hkey : ∀ b ∈ escape f.1, (b != equals) = true := by
    intro b hb
    rw [bne_iff_ne]
    rintro rfl
    exact not_mem_escape (by decide) _ hb
  unfold splitPair pair
  rw [List.takeWhile_append_of_pos hkey, List.dropWhile_append_of_pos hkey]
  simp

theorem not_mem_pair {b : UInt8} (h : safe b = false) (hne : b ≠ equals) (f : Bytes × Bytes) :
    b ∉ pair f := by
  simp [pair, not_mem_escape h, hne]

theorem amp_not_mem {l : List (Bytes × Bytes)} {s : Bytes} (hs : s ∈ l.map pair) : amp ∉ s := by
  obtain ⟨f, -, rfl⟩ := List.mem_map.1 hs
  exact not_mem_pair (by decide) (by decide) f

theorem map_readPair (l : List (Bytes × Bytes)) : (l.map pair).map readPair = l := by
  rw [List.map_map]
  refine (List.map_congr_left fun f _ => ?_).trans (List.map_id l)
  simp only [Function.comp, readPair, splitPair_pair, Option.getD_some, unescape_escape, id]

theorem fields_joined {l : List (Bytes × Bytes)} (h : l ≠ []) : fields (joined l) = l := by
  unfold fields joined
  rw [List.splitOn_intercalate amp (fun s hs => amp_not_mem hs) (mt List.map_eq_nil_iff.1 h), map_readPair]

theorem fields_toQuery {l : List (Bytes × Bytes)} (h : l ≠ []) : (fields (toQuery l)).Perm l := by
  have hsort := List.perm_insertionSort (· ≤ ·) (l.map pair)
  have hnil : (l.map pair).insertionSort (· ≤ ·) ≠ [] :=
    fun he => h (List.map_eq_nil_iff.1 (he ▸ hsort).symm.eq_nil)
  unfold fields toQuery
  rw [List.splitOn_intercalate amp (fun s hs => amp_not_mem (hsort.mem_iff.1 hs)) hnil]
  exact (hsort.map readPair).trans (List.Perm.of_eq (map_readPair l))

/-- A sorted query is the query of the fields in another order. -/
theorem toQuery_eq_joined (l : List (Bytes × Bytes)) : ∃ m, m.Perm l ∧ toQuery l = joined m := by
  have hsort := List.perm_insertionSort (· ≤ ·) (l.map pair)
  refine ⟨((l.map pair).insertionSort (· ≤ ·)).map readPair, ?_, ?_⟩
  · exact (hsort.map readPair).trans (List.Perm.of_eq (map_readPair l))
  · unfold toQuery joined
    rw [List.map_map]
    congr 1
    refine (List.map_id _).symm.trans (List.map_congr_left fun s hs => ?_)
    obtain ⟨f, -, rfl⟩ := List.mem_map.1 (hsort.mem_iff.1 hs)
    simp only [Function.comp, readPair, splitPair_pair, Option.getD_some, unescape_escape, id]

/-- With distinct keys a lookup finds the field. -/
theorem lookup_of_mem {l : List (Bytes × Bytes)} {k v : Bytes} (hnd : (l.map Prod.fst).Nodup) (h : (k, v) ∈ l) :
    l.lookup k = some v := by
  induction l with
  | nil => cases h
  | cons f l ih =>
    rw [List.map_cons, List.nodup_cons] at hnd
    rcases List.mem_cons.1 h with rfl | h
    · simp
    · have hne : (k == f.1) = false := beq_eq_false_iff_ne.2 fun he => hnd.1 (he ▸ List.mem_map_of_mem h)
      rw [List.lookup_cons, hne]
      exact ih hnd.2 h

theorem firstValue_of_mem {l : List (Bytes × Bytes)} {k v : Bytes} (hnd : (l.map Prod.fst).Nodup) (h : (k, v) ∈ l) :
    firstValue k (l.map fun f => (f.1, some f.2)) = some v := by
  induction l with
  | nil => cases h
  | cons f l ih =>
    rw [List.map_cons, List.nodup_cons] at hnd
    unfold firstValue at ih ⊢
    rw [List.map_cons, List.findSome?_cons]
    rcases List.mem_cons.1 h with rfl | h
    · simp
    · have hne : f.1 ≠ k := fun he => hnd.1 (he ▸ List.mem_map_of_mem h)
      rw [if_neg hne]
      exact ih hnd.2 h

theorem splitOnP_intercalate {α : Type*} {p : α → Bool} {x : α} (hx : p x = true) {ps : List (List α)}
    (hps : ∀ l ∈ ps, ∀ a ∈ l, p a = false) (hnil : ps ≠ []) : ([x].intercalate ps).splitOnP p = ps := by
  induction ps with
  | nil => exact absurd rfl hnil
  | cons l ps ih =>
    have hl := hps l List.mem_cons_self
    cases ps with
    | nil => rw [List.intercalate_singleton, List.splitOnP_eq_singleton hl]
    | cons m ps =>
      rw [List.intercalate_cons_cons, List.append_assoc, List.singleton_append,
        List.splitOnP_append_cons_of_forall_mem hl x hx,
        ih (fun l hl => hps l (List.mem_cons_of_mem _ hl)) (List.cons_ne_nil _ _)]

theorem parse_joined {l : List (Bytes × Bytes)} (h : l ≠ []) :
    parse (joined l) = l.map fun f => (f.1, some f.2) := by
  have hsep : ∀ s ∈ l.map pair, ∀ b ∈ s, separator b = false := by
    intro s hs b hb
    obtain ⟨f, -, rfl⟩ := List.mem_map.1 hs
    have hamp : b ≠ amp := fun he => not_mem_pair (by decide) (by decide) f (he ▸ hb)
    have hsemi : b ≠ semicolon := fun he => not_mem_pair (by decide) (by decide) f (he ▸ hb)
    rw [separator, Bool.or_eq_false_iff, beq_eq_false_iff_ne, beq_eq_false_iff_ne]
    exact ⟨hamp, hsemi⟩
  have hfull : ∀ s ∈ l.map pair, decide (s ≠ []) = true := by
    intro s hs
    obtain ⟨f, -, rfl⟩ := List.mem_map.1 hs
    simp [pair]
  unfold parse joined
  rw [splitOnP_intercalate rfl hsep (mt List.map_eq_nil_iff.1 h), List.filter_eq_self.2 hfull, List.map_map]
  refine List.map_congr_left fun f _ => ?_
  simp only [Function.comp, splitPair_pair, Option.map_some, unescape_escape]

end Insta.Core.FormUrl
