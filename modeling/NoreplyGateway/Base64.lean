import Mathlib

namespace NoreplyGateway.Base64

def alphabet : List Char :=
  "ABCDEFGHIJKLMNOPQRSTUVWXYZabcdefghijklmnopqrstuvwxyz0123456789+/".toList

def digit (n : ℕ) : Char := alphabet.getD n 'A'

def value (c : Char) : Option ℕ :=
  if c ∈ alphabet then some (alphabet.idxOf c) else none

/-- Four digits for three octets, and padding at the end. -/
def encode : List UInt8 → List Char
  | [] => []
  | [a] => [digit (a.toNat / 4), digit (a.toNat % 4 * 16), '=', '=']
  | [a, b] => [digit (a.toNat / 4), digit (a.toNat % 4 * 16 + b.toNat / 16),
      digit (b.toNat % 16 * 4), '=']
  | a :: b :: c :: l => digit (a.toNat / 4) :: digit (a.toNat % 4 * 16 + b.toNat / 16) ::
      digit (b.toNat % 16 * 4 + c.toNat / 64) :: digit (c.toNat % 64) :: encode l

def decode : List Char → Option (List UInt8)
  | [] => some []
  | [w, x, '=', '='] => do
    let w ← value w
    let x ← value x
    return [.ofNat (w * 4 + x / 16)]
  | [w, x, y, '='] => do
    let w ← value w
    let x ← value x
    let y ← value y
    return [.ofNat (w * 4 + x / 16), .ofNat (x % 16 * 16 + y / 4)]
  | w :: x :: y :: z :: l => do
    let w ← value w
    let x ← value x
    let y ← value y
    let z ← value z
    let rest ← decode l
    return .ofNat (w * 4 + x / 16) :: .ofNat (x % 16 * 16 + y / 4) :: .ofNat (y % 4 * 64 + z) :: rest
  | _ => none

theorem value_digit {n : ℕ} (h : n < 64) : value (digit n) = some n := by
  have hall : ∀ n : Fin 64, value (digit n) = some n.val := by decide +kernel
  exact hall ⟨n, h⟩

theorem digit_ne {c : Char} (hc : c ∉ alphabet) (n : ℕ) : digit n ≠ c := by
  rintro rfl
  refine hc ?_
  rw [digit, List.getD_eq_getElem?_getD]
  cases hn : alphabet[n]? with
  | none => decide
  | some d => exact List.mem_of_getElem? hn

theorem ofNat_eq {a : UInt8} {n : ℕ} (h : n = a.toNat) : UInt8.ofNat n = a := by
  rw [h, UInt8.ofNat_toNat]

theorem decode_encode (l : List UInt8) : decode (encode l) = some l := by
  have hpad : ∀ n, digit n ≠ '=' := digit_ne (by decide +kernel)
  induction l using encode.induct with
  | case1 => rfl
  | case2 a =>
    have ha := a.toNat_lt
    have hw : a.toNat / 4 < 64 := by omega
    have hx : a.toNat % 4 * 16 < 64 := by omega
    have hoctet : a.toNat / 4 * 4 + a.toNat % 4 * 16 / 16 = a.toNat := by omega
    simp only [encode, decode, value_digit hw, value_digit hx, Option.bind_eq_bind,
      Option.bind_some, Option.pure_def, ofNat_eq hoctet]
  | case3 a b =>
    have ha := a.toNat_lt
    have hb := b.toNat_lt
    have hw : a.toNat / 4 < 64 := by omega
    have hx : a.toNat % 4 * 16 + b.toNat / 16 < 64 := by omega
    have hy : b.toNat % 16 * 4 < 64 := by omega
    have hfirst : a.toNat / 4 * 4 + (a.toNat % 4 * 16 + b.toNat / 16) / 16 = a.toNat := by omega
    have hsecond : (a.toNat % 4 * 16 + b.toNat / 16) % 16 * 16 + b.toNat % 16 * 4 / 4 = b.toNat := by
      omega
    rw [encode, decode]
    · simp only [value_digit hw, value_digit hx, value_digit hy, Option.bind_eq_bind,
        Option.bind_some, Option.pure_def, ofNat_eq hfirst, ofNat_eq hsecond]
    · exact hpad _
  | case4 a b c l ih =>
    have ha := a.toNat_lt
    have hb := b.toNat_lt
    have hc := c.toNat_lt
    have hw : a.toNat / 4 < 64 := by omega
    have hx : a.toNat % 4 * 16 + b.toNat / 16 < 64 := by omega
    have hy : b.toNat % 16 * 4 + c.toNat / 64 < 64 := by omega
    have hz : c.toNat % 64 < 64 := by omega
    have hfirst : a.toNat / 4 * 4 + (a.toNat % 4 * 16 + b.toNat / 16) / 16 = a.toNat := by omega
    have hsecond : (a.toNat % 4 * 16 + b.toNat / 16) % 16 * 16 +
        (b.toNat % 16 * 4 + c.toNat / 64) / 4 = b.toNat := by omega
    have hthird : (b.toNat % 16 * 4 + c.toNat / 64) % 4 * 64 + c.toNat % 64 = c.toNat := by omega
    rw [encode, decode]
    · simp only [value_digit hw, value_digit hx, value_digit hy, value_digit hz, ih,
        Option.bind_eq_bind, Option.bind_some, Option.pure_def, ofNat_eq hfirst, ofNat_eq hsecond,
        ofNat_eq hthird]
    · exact fun _ hz _ ↦ hpad _ hz
    · exact fun hz _ ↦ hpad _ hz

theorem mem_alphabet_of_encode {c : Char} {l : List UInt8} (h : c ∈ encode l) :
    c ∈ alphabet ∨ c = '=' := by
  have hdigit : ∀ n, digit n ∈ alphabet := by
    intro n
    by_contra hn
    exact digit_ne hn n rfl
  induction l using encode.induct with
  | case1 => cases h
  | case2 a =>
    simp only [encode, List.mem_cons, List.not_mem_nil, or_false] at h
    grind
  | case3 a b =>
    simp only [encode, List.mem_cons, List.not_mem_nil, or_false] at h
    grind
  | case4 a b c' l ih =>
    simp only [encode, List.mem_cons] at h
    grind

end NoreplyGateway.Base64
