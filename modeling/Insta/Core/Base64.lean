import Mathlib.Data.List.Basic

/-!
# Base64

`encode` is the strict encoding (no line breaks, padded to a multiple of
four). `decode` is lenient: it skips bytes outside the alphabet, ends at a
`=` in the third or fourth place of a group, and takes what an unfinished
last group gives.

* `decode_encode`: decoding an encoding gives the bytes back.
* `encode_visible`: an encoding is printable.
-/
namespace Insta.Core.Base64

/-- The digit of the six bits `v`. -/
def digit (v : Nat) : UInt8 :=
  if v < 26 then .ofNat (v + 65)
  else if v < 52 then .ofNat (v + 71)
  else if v < 62 then .ofNat (v - 4)
  else if v = 62 then 43
  else 47

def value (b : UInt8) : Option Nat :=
  if 65 ≤ b.toNat ∧ b.toNat ≤ 90 then some (b.toNat - 65)
  else if 97 ≤ b.toNat ∧ b.toNat ≤ 122 then some (b.toNat - 71)
  else if 48 ≤ b.toNat ∧ b.toNat ≤ 57 then some (b.toNat + 4)
  else if b = 43 then some 62
  else if b = 47 then some 63
  else none

/-- The byte `=`. -/
def pad : UInt8 := 61

def encode : List UInt8 → List UInt8
  | [] => []
  | [a] => [digit (a.toNat / 4), digit (a.toNat % 4 * 16), pad, pad]
  | [a, b] => [digit (a.toNat / 4), digit (a.toNat % 4 * 16 + b.toNat / 16), digit (b.toNat % 16 * 4), pad]
  | a :: b :: c :: rest =>
    digit (a.toNat / 4) :: digit (a.toNat % 4 * 16 + b.toNat / 16) ::
      digit (b.toNat % 16 * 4 + c.toNat / 64) :: digit (c.toNat % 64) :: encode rest

/-- The values of the digits up to the padding; `i` is the place in the
group. -/
def sextets : Nat → List UInt8 → List Nat
  | _, [] => []
  | i, b :: bs =>
    match value b with
    | some v => v :: sextets ((i + 1) % 4) bs
    | none => if b = pad ∧ 2 ≤ i then [] else sextets i bs

def pack : List Nat → List UInt8
  | a :: b :: c :: d :: rest =>
    .ofNat (a * 4 + b / 16) :: .ofNat (b % 16 * 16 + c / 4) :: .ofNat (c % 4 * 64 + d) :: pack rest
  | [a, b, c] => [.ofNat (a * 4 + b / 16), .ofNat (b % 16 * 16 + c / 4)]
  | [a, b] => [.ofNat (a * 4 + b / 16)]
  | _ => []

def decode (s : List UInt8) : List UInt8 := pack (sextets 0 s)

theorem value_digit : ∀ v < 64, value (digit v) = some v := by decide

theorem sextets_digit {v : Nat} (h : v < 64) (i : Nat) (bs : List UInt8) :
    sextets i (digit v :: bs) = v :: sextets ((i + 1) % 4) bs := by
  simp only [sextets, value_digit v h]

theorem sextets_pad {i : Nat} (h : 2 ≤ i) (bs : List UInt8) : sextets i (pad :: bs) = [] := by
  have hvalue : value pad = none := by decide
  simp only [sextets, hvalue, h, and_self, if_true]

theorem ofNat_eq {a : UInt8} {n : Nat} (h : n = a.toNat) : UInt8.ofNat n = a := by
  rw [h, UInt8.ofNat_toNat]

theorem decode_encode (x : List UInt8) : decode (encode x) = x := by
  unfold decode
  induction x using encode.induct with
  | case1 => rfl
  | case2 a =>
    have ha := a.toNat_lt
    rw [encode, sextets_digit (by omega), sextets_digit (by omega), sextets_pad (by omega)]
    simp only [pack]
    rw [ofNat_eq (a := a) (by omega)]
  | case3 a b =>
    have ha := a.toNat_lt
    have hb := b.toNat_lt
    rw [encode, sextets_digit (by omega), sextets_digit (by omega), sextets_digit (by omega),
      sextets_pad (by omega)]
    simp only [pack]
    rw [ofNat_eq (a := a) (by omega), ofNat_eq (a := b) (by omega)]
  | case4 a b c rest ih =>
    have ha := a.toNat_lt
    have hb := b.toNat_lt
    have hc := c.toNat_lt
    rw [encode, sextets_digit (by omega), sextets_digit (by omega), sextets_digit (by omega),
      sextets_digit (by omega)]
    simp only [pack]
    rw [ofNat_eq (a := a) (by omega), ofNat_eq (a := b) (by omega), ofNat_eq (a := c) (by omega)]
    exact congrArg (fun l => a :: b :: c :: l) ih

theorem digit_visible (v : Nat) : 33 ≤ (digit v).toNat ∧ (digit v).toNat ≤ 126 := by
  by_cases hv : v < 64
  · revert v
    decide
  · have h : digit v = 47 := by
      simp only [digit, show ¬ v < 26 by omega, show ¬ v < 52 by omega, show ¬ v < 62 by omega,
        show v ≠ 62 by omega, if_false]
    rw [h]
    decide

theorem encode_ne_nil {x : List UInt8} (h : x ≠ []) : encode x ≠ [] := by
  match x with
  | [a] => simp [encode]
  | [a, b] => simp [encode]
  | a :: b :: c :: rest => simp [encode]

theorem encode_visible (x : List UInt8) : ∀ b ∈ encode x, 33 ≤ b.toNat ∧ b.toNat ≤ 126 := by
  have hpad : 33 ≤ pad.toNat ∧ pad.toNat ≤ 126 := by decide
  induction x using encode.induct with
  | case1 => exact fun b hb => absurd hb List.not_mem_nil
  | case2 a => simp [encode, digit_visible, hpad]
  | case3 a b => simp [encode, digit_visible, hpad]
  | case4 a b c rest ih => simpa only [encode, List.forall_mem_cons, digit_visible, true_and] using ih

end Insta.Core.Base64
