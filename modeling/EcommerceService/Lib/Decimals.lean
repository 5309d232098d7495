import Mathlib.Algebra.Order.Field.Rat
import Mathlib.Algebra.Order.Ring.Int
import Mathlib.Tactic.Ring

namespace EcommerceService.Decimals

/-- The number `mantissa * 10 ^ exponent`, without trailing zeros in the mantissa. -/
@[ext] structure Decimal where
  mantissa : ℤ
  exponent : ℤ
  normal : mantissa = 0 ∧ exponent = 0 ∨ ¬ 10 ∣ mantissa
deriving DecidableEq

namespace Decimal

def toRat (d : Decimal) : ℚ := d.mantissa * 10 ^ d.exponent

def strip : ℕ → ℤ → ℤ → ℤ × ℤ
  | 0, m, e => (m, e)
  | fuel + 1, m, e => if 10 ∣ m then strip fuel (m / 10) (e + 1) else (m, e)

theorem strip_normal {fuel : ℕ} {m e : ℤ} (hm : m ≠ 0) (hfuel : m.natAbs ≤ fuel) :
    ¬ 10 ∣ (strip fuel m e).1 := by
  induction fuel generalizing m e with
  | zero => omega
  | succ fuel ih =>
    rw [strip]
    split
    · exact ih (by omega) (by omega)
    · assumption

theorem strip_shift {fuel z : ℕ} {m e : ℤ} (hm : ¬ 10 ∣ m) (hz : z ≤ fuel) :
    strip fuel (m * 10 ^ z) e = (m, e + z) := by
  induction z generalizing fuel e with
  | zero =>
    cases fuel with
    | zero => simp [strip]
    | succ fuel => simp [strip, hm]
  | succ z ih =>
    cases fuel with
    | zero => omega
    | succ fuel =>
      have hdvd : m * 10 ^ (z + 1) = m * 10 ^ z * 10 := by ring
      rw [strip, hdvd, if_pos (Dvd.intro_left _ rfl), Int.mul_ediv_cancel _ (by norm_num),
        ih (by omega)]
      push_cast
      ring_nf

theorem strip_value (fuel : ℕ) (m e : ℤ) :
    ((strip fuel m e).1 : ℚ) * 10 ^ (strip fuel m e).2 = m * 10 ^ e := by
  induction fuel generalizing m e with
  | zero => rfl
  | succ fuel ih =>
    rw [strip]
    split
    · rename_i h
      obtain ⟨k, rfl⟩ := h
      rw [ih, Int.mul_ediv_cancel_left _ (by norm_num), zpow_add_one₀ (by norm_num)]
      push_cast
      ring
    · rfl

def scaled (m e : ℤ) : Decimal :=
  if h : m = 0 then ⟨0, 0, .inl ⟨rfl, rfl⟩⟩
  else ⟨(strip m.natAbs m e).1, (strip m.natAbs m e).2, .inr (strip_normal h le_rfl)⟩

@[simp] theorem toRat_scaled (m e : ℤ) : (scaled m e).toRat = m * 10 ^ e := by
  rw [scaled]
  split
  · rename_i h
    simp [toRat, h]
  · exact strip_value _ m e

theorem scaled_shift (d : Decimal) (z : ℕ) :
    scaled (d.mantissa * 10 ^ z) (d.exponent - z) = d := by
  obtain ⟨m, e, h⟩ := d
  obtain ⟨rfl, rfl⟩ | hm := h
  · simp [scaled]
  · have hne : m ≠ 0 := by
      rintro rfl
      exact hm (dvd_zero 10)
    have hpos : m * 10 ^ z ≠ 0 := mul_ne_zero hne (pow_ne_zero z (by norm_num))
    have hz : z ≤ (m * 10 ^ z).natAbs := by
      rw [Int.natAbs_mul, Int.natAbs_pow]
      calc z ≤ 10 ^ z := (Nat.lt_pow_self (by norm_num)).le
        _ ≤ m.natAbs * 10 ^ z := Nat.le_mul_of_pos_left _ (Int.natAbs_pos.mpr hne)
    simp only [scaled, hpos, dif_neg, not_false_eq_true]
    ext
    · simp only [strip_shift hm hz]
    · simp only [strip_shift hm hz, Int.sub_add_cancel]

theorem scaled_self (d : Decimal) : scaled d.mantissa d.exponent = d := by
  simpa using d.scaled_shift 0

end Decimal

structure Numeral where
  negative : Bool
  whole : List Char
  fraction : List Char
  exponent : Option ℤ
deriving DecidableEq, Repr

namespace Numeral

def text (n : Numeral) : List Char :=
  (if n.negative then ['-'] else []) ++ (n.whole ++
    ((if n.fraction = [] then [] else '.' :: n.fraction) ++
      (match n.exponent with
        | none => []
        | some e => 'e' :: (if e < 0 then '-' else '+') :: Nat.toDigits 10 e.natAbs)))

def sign (negative : Bool) : ℤ := if negative then -1 else 1

def value (n : Numeral) : Decimal :=
  .scaled (sign n.negative * (Nat.ofDigitChars 10 (n.whole ++ n.fraction) 0 : ℕ))
    (n.exponent.getD 0 - n.fraction.length)

structure WellFormed (n : Numeral) : Prop where
  digits : ∀ c ∈ n.whole, c.isDigit = true
  fractionDigits : ∀ c ∈ n.fraction, c.isDigit = true
  ne_nil : n.whole ≠ []
  leading : n.whole.head? = some '0' → n.whole = ['0']

end Numeral

namespace Decimal

/-- How JavaScript writes a number: in full up to the exponents -7 and 21. -/
def numeral (d : Decimal) : Numeral :=
  let digits := Nat.toDigits 10 d.mantissa.natAbs
  let n : ℤ := digits.length + d.exponent
  let negative := decide (d.mantissa < 0)
  if 0 ≤ d.exponent ∧ n ≤ 21 then
    ⟨negative, digits ++ List.replicate d.exponent.toNat '0', [], none⟩
  else if 0 < n ∧ n ≤ 21 then ⟨negative, digits.take n.toNat, digits.drop n.toNat, none⟩
  else if -6 < n ∧ n ≤ 0 then ⟨negative, ['0'], List.replicate (-n).toNat '0' ++ digits, none⟩
  else ⟨negative, digits.take 1, digits.drop 1, some (n - 1)⟩

def text (d : Decimal) : List Char := d.numeral.text

theorem sign_mul_abs (m : ℤ) : Numeral.sign (decide (m < 0)) * |m| = m := by
  by_cases h : m < 0
  · simp only [Numeral.sign, h, decide_true, if_true, abs_of_neg h]
    omega
  · simp only [Numeral.sign, h, decide_false, Bool.false_eq_true, if_false,
      abs_of_nonneg (Int.not_lt.mp h)]
    omega

theorem value_numeral (d : Decimal) : d.numeral.value = d := by
  have hpos : 0 < (Nat.toDigits 10 d.mantissa.natAbs).length := Nat.length_toDigits_pos
  rw [numeral]
  split
  · rename_i h
    have hz : (0 : ℤ) = d.exponent - d.exponent.toNat := by omega
    have hm : Numeral.sign (decide (d.mantissa < 0)) * ((10 ^ d.exponent.toNat * d.mantissa.natAbs : ℕ) : ℤ)
        = d.mantissa * 10 ^ d.exponent.toNat := by
      push_cast
      rw [← mul_assoc, mul_comm (Numeral.sign _), mul_assoc, sign_mul_abs]
      ring
    simp only [Numeral.value, List.append_nil, Nat.ofDigitChars_append, Nat.ofDigitChars_ten_toDigits,
      Nat.ofDigitChars_replicate_zero, Option.getD_none, List.length_nil, Nat.cast_zero, sub_zero, hm]
    rw [hz]
    exact d.scaled_shift _
  · split
    · simp only [Numeral.value, List.take_append_drop, Nat.ofDigitChars_ten_toDigits,
        Int.natCast_natAbs, sign_mul_abs, Option.getD_none, List.length_drop]
      convert d.scaled_self using 2
      omega
    · split
      · simp only [Numeral.value, List.singleton_append, Nat.ofDigitChars_cons, Nat.ofDigitChars_append,
          Nat.ofDigitChars_replicate_zero, Option.getD_none, List.length_append, List.length_replicate]
        convert d.scaled_self using 2
        · simp [sign_mul_abs]
        · omega
      · simp only [Numeral.value, List.take_append_drop, Nat.ofDigitChars_ten_toDigits,
          Int.natCast_natAbs, sign_mul_abs, Option.getD_some, List.length_drop]
        convert d.scaled_self using 2
        omega

theorem head?_append {cs ds : List Char} (h : cs ≠ []) : (cs ++ ds).head? = cs.head? := by
  rw [List.head?_append, List.head?_eq_some_head h]
  rfl

theorem head_toDigits {n : ℕ} (hn : n ≠ 0) : (Nat.toDigits 10 n).head? ≠ some '0' := by
  induction n using Nat.strong_induction_on with
  | _ n ih =>
    rw [Nat.toDigits_eq_if (by norm_num)]
    split
    · simpa using hn
    · rw [head?_append Nat.toDigits_ne_nil]
      exact ih (n / 10) (by omega) (by omega)

theorem isDigit_toDigits {n : ℕ} {c : Char} (hc : c ∈ Nat.toDigits 10 n) : c.isDigit = true :=
  Nat.isDigit_of_mem_toDigits (by norm_num) le_rfl hc

theorem wellFormed_numeral (d : Decimal) : d.numeral.WellFormed := by
  have hpos : 0 < (Nat.toDigits 10 d.mantissa.natAbs).length := Nat.length_toDigits_pos
  have hzero : ∀ n, ∀ c ∈ List.replicate n '0', c.isDigit = true := by
    intro n c hc
    rw [List.eq_of_mem_replicate hc]
    rfl
  -- a mantissa that is zero has the exponent zero, and is written as the digit zero
  have hlead : (0 ≤ d.exponent → (Nat.toDigits 10 d.mantissa.natAbs).length + d.exponent ≤ 21 →
      d.exponent ≠ 0) → (Nat.toDigits 10 d.mantissa.natAbs).head? ≠ some '0' := by
    intro hexp
    refine head_toDigits (fun hm => ?_)
    obtain ⟨_, he⟩ | hm' := d.normal
    · rw [he, hm] at hexp
      exact hexp le_rfl (by decide) rfl
    · exact hm' (Int.natAbs_eq_zero.mp hm ▸ dvd_zero 10)
  rw [numeral]
  split
  · rename_i h
    refine ⟨?_, by simp, by simp, fun hhead => ?_⟩
    · intro c hc
      obtain hc | hc := List.mem_append.mp hc
      · exact isDigit_toDigits hc
      · exact hzero _ c hc
    · rw [head?_append Nat.toDigits_ne_nil] at hhead
      have he : d.exponent = 0 := by
        by_contra hne
        exact hlead (fun _ _ => hne) hhead
      have hm : d.mantissa.natAbs = 0 := by
        by_contra hne
        exact head_toDigits hne hhead
      simp [he, hm]
  · rename_i h
    have hlead' := hlead (fun h0 h21 => absurd ⟨h0, h21⟩ h)
    have htake : ∀ n : ℕ, 0 < n → ((Nat.toDigits 10 d.mantissa.natAbs).take n).head? ≠ some '0' := by
      intro n hn
      rw [List.head?_take, if_neg (by omega)]
      exact hlead'
    split
    · refine ⟨fun c hc => isDigit_toDigits (List.mem_of_mem_take hc),
        fun c hc => isDigit_toDigits (List.mem_of_mem_drop hc), ?_, fun hhead => ?_⟩
      · rw [← List.length_pos_iff, List.length_take]
        omega
      · exact absurd hhead (htake _ (by omega))
    · split
      · refine ⟨by simp, ?_, by simp, fun _ => rfl⟩
        intro c hc
        obtain hc | hc := List.mem_append.mp hc
        · exact hzero _ c hc
        · exact isDigit_toDigits hc
      · refine ⟨fun c hc => isDigit_toDigits (List.mem_of_mem_take hc),
          fun c hc => isDigit_toDigits (List.mem_of_mem_drop hc), ?_, fun hhead => ?_⟩
        · rw [← List.length_pos_iff, List.length_take]
          omega
        · exact absurd hhead (htake 1 (by omega))

end Decimal

section Read

def readSign : List Char → Bool × List Char
  | '-' :: cs => (true, cs)
  | cs => (false, cs)

def readFraction : List Char → Option (List Char × List Char)
  | '.' :: cs =>
      if cs.takeWhile Char.isDigit = [] then none
      else some (cs.takeWhile Char.isDigit, cs.dropWhile Char.isDigit)
  | cs => some ([], cs)

def readExponentSign : List Char → Bool × List Char
  | '-' :: cs => (true, cs)
  | '+' :: cs => (false, cs)
  | cs => (false, cs)

def readExponent : List Char → Option (Option ℤ × List Char)
  | [] => some (none, [])
  | c :: cs =>
      if c = 'e' ∨ c = 'E' then
        let (negative, cs) := readExponentSign cs
        let digits := cs.takeWhile Char.isDigit
        if digits = [] then none
        else some (some (Numeral.sign negative * (Nat.ofDigitChars 10 digits 0 : ℕ)),
          cs.dropWhile Char.isDigit)
      else some (none, c :: cs)

def read (cs : List Char) : Option (Decimal × List Char) :=
  let (negative, cs) := readSign cs
  let whole := cs.takeWhile Char.isDigit
  if whole = [] ∨ (whole.head? = some '0' ∧ whole ≠ ['0']) then none
  else
    (readFraction (cs.dropWhile Char.isDigit)).bind (fun (fraction, cs) =>
      (readExponent cs).map (fun (exponent, cs) => (Numeral.value ⟨negative, whole, fraction, exponent⟩, cs)))

def Stops (cs : List Char) : Prop :=
  ∀ c ∈ cs.head?, c.isDigit = false ∧ c ≠ '.' ∧ c ≠ 'e' ∧ c ≠ 'E'

variable {ds rest : List Char}

theorem takeWhile_digits (h : ∀ c ∈ ds, c.isDigit = true) (hrest : ∀ c ∈ rest.head?, c.isDigit = false) :
    (ds ++ rest).takeWhile Char.isDigit = ds := by
  rw [List.takeWhile_append_of_pos h]
  cases rest with
  | nil => simp
  | cons c cs => simp [hrest c rfl]

theorem dropWhile_digits (h : ∀ c ∈ ds, c.isDigit = true) (hrest : ∀ c ∈ rest.head?, c.isDigit = false) :
    (ds ++ rest).dropWhile Char.isDigit = rest := by
  rw [List.dropWhile_append_of_pos h]
  cases rest with
  | nil => rfl
  | cons c cs => simp [hrest c rfl]

theorem readExponent_text (e : Option ℤ) (hrest : Stops rest) :
    readExponent ((match e with
      | none => []
      | some e => 'e' :: (if e < 0 then '-' else '+') :: Nat.toDigits 10 e.natAbs) ++ rest) =
        some (e, rest) := by
  cases e with
  | none =>
    cases rest with
    | nil => rfl
    | cons c cs =>
      obtain ⟨_, _, he, hE⟩ := hrest c rfl
      simp [readExponent, he, hE]
  | some e =>
    have hdigits : ∀ c ∈ Nat.toDigits 10 e.natAbs, c.isDigit = true := fun _ => Decimal.isDigit_toDigits
    have hstop : ∀ c ∈ rest.head?, c.isDigit = false := fun c hc => (hrest c hc).1
    have hsign := Decimal.sign_mul_abs e
    by_cases he : e < 0
    · simp only [he, decide_true] at hsign
      simp [readExponent, readExponentSign, he, takeWhile_digits hdigits hstop,
        dropWhile_digits hdigits hstop, hsign]
    · simp only [he, decide_false] at hsign
      simp [readExponent, readExponentSign, he, takeWhile_digits hdigits hstop,
        dropWhile_digits hdigits hstop, hsign]

theorem Stops.exponent (e : Option ℤ) (hrest : Stops rest) : ∀ c ∈ ((match e with
      | none => []
      | some e => 'e' :: (if e < 0 then '-' else '+') :: Nat.toDigits 10 e.natAbs) ++ rest).head?,
    c.isDigit = false ∧ c ≠ '.' := by
  cases e with
  | none => exact fun c hc => ⟨(hrest c hc).1, (hrest c hc).2.1⟩
  | some e =>
    rintro c hc
    cases Option.mem_some.mp hc
    decide

theorem readFraction_text {cs : List Char} (hds : ∀ c ∈ ds, c.isDigit = true)
    (hcs : ∀ c ∈ cs.head?, c.isDigit = false ∧ c ≠ '.') :
    readFraction ((if ds = [] then [] else '.' :: ds) ++ cs) = some (ds, cs) := by
  have hstop : ∀ c ∈ cs.head?, c.isDigit = false := fun c hc => (hcs c hc).1
  by_cases hnil : ds = []
  · cases cs with
    | nil => simp [hnil, readFraction]
    | cons c cs =>
      have hpoint : c ≠ '.' := (hcs c rfl).2
      simp [hnil, readFraction, hpoint]
  · simp [hnil, readFraction, takeWhile_digits hds hstop, dropWhile_digits hds hstop]

theorem readSign_text {cs : List Char} (negative : Bool) (hcs : cs.head? ≠ some '-') :
    readSign ((if negative then ['-'] else []) ++ cs) = (negative, cs) := by
  cases negative with
  | true => rfl
  | false =>
    cases cs with
    | nil => rfl
    | cons c cs =>
      have hc : c ≠ '-' := fun h => hcs (h ▸ rfl)
      simp [readSign, hc]

theorem Numeral.read_text {n : Numeral} (h : n.WellFormed) (hrest : Stops rest) :
    read (n.text ++ rest) = some (n.value, rest) := by
  obtain ⟨negative, whole, fraction, exponent⟩ := n
  have hdigit : ∀ c ∈ whole, c ≠ '-' := by
    rintro c hc rfl
    cases h.digits _ hc
  have hhead : ∀ cs : List Char, (whole ++ cs).head? ≠ some '-' := by
    intro cs hc
    rw [Decimal.head?_append h.ne_nil] at hc
    exact hdigit _ (List.mem_of_mem_head? hc) rfl
  have hfraction : ∀ cs : List Char, (∀ c ∈ cs.head?, c.isDigit = false ∧ c ≠ '.') →
      ∀ c ∈ ((if fraction = [] then [] else '.' :: fraction) ++ cs).head?, c.isDigit = false := by
    intro cs hcs c hc
    by_cases hnil : fraction = []
    · rw [if_pos hnil] at hc
      exact (hcs c hc).1
    · rw [if_neg hnil] at hc
      cases Option.mem_some.mp hc
      rfl
  have hok : ¬ (whole = [] ∨ (whole.head? = some '0' ∧ whole ≠ ['0'])) := by
    rintro (hnil | ⟨hzero, hne⟩)
    · exact h.ne_nil hnil
    · exact hne (h.leading hzero)
  simp only [Numeral.text, List.append_assoc, read]
  rw [readSign_text _ (hhead _)]
  simp only [takeWhile_digits h.digits (hfraction _ (hrest.exponent exponent)),
    dropWhile_digits h.digits (hfraction _ (hrest.exponent exponent)), if_neg hok]
  rw [readFraction_text h.fractionDigits (hrest.exponent exponent)]
  simp only [Option.bind_some, readExponent_text exponent hrest, Option.map_some]

theorem Decimal.read_text (d : Decimal) (hrest : Stops rest) :
    read (d.text ++ rest) = some (d, rest) := by
  rw [Decimal.text, Numeral.read_text d.wellFormed_numeral hrest, d.value_numeral]

theorem Decimal.head_text (d : Decimal) : ∃ c cs, d.text = c :: cs ∧ (c = '-' ∨ c.isDigit = true) := by
  have hw := d.wellFormed_numeral
  rw [Decimal.text, Numeral.text]
  cases d.numeral.negative with
  | true => exact ⟨_, _, rfl, .inl rfl⟩
  | false =>
    obtain ⟨c, cs, hwhole⟩ := List.exists_cons_of_ne_nil hw.ne_nil
    rw [hwhole]
    exact ⟨c, _, rfl, .inr (hw.digits c (hwhole ▸ List.mem_cons_self))⟩

end Read

end EcommerceService.Decimals
