import Mathlib.Tactic.IntervalCases
import EcommerceService.Lib.Decimals

namespace EcommerceService.JsonText

open EcommerceService.Decimals

/-- A value that JSON can write. A later member of an object hides an earlier one of the
same name. -/
inductive Value where
  | null
  | bool (b : Bool)
  | number (d : Decimal)
  | string (s : String)
  | array (elements : List Value)
  | object (members : List (String × Value))

namespace Value

def isString : Value → Bool
  | string _ => true
  | _ => false

def member (name : String) : Value → Option Value
  | object members => members.reverse.lookup name
  | _ => none

def isNull : Value → Bool
  | null => true
  | _ => false

mutual

def toChars : Value → List Char
  | null => ['n', 'u', 'l', 'l']
  | bool b => if b then ['t', 'r', 'u', 'e'] else ['f', 'a', 'l', 's', 'e']
  | number d => d.text
  | string s => s.toList
  | array vs => (joinChars vs).drop 1
  | object _ => ['[', 'o', 'b', 'j', 'e', 'c', 't', ' ', 'O', 'b', 'j', 'e', 'c', 't', ']']

def joinChars : List Value → List Char
  | [] => []
  | v :: vs => ',' :: ((if v.isNull then [] else toChars v) ++ joinChars vs)

end

def toText (v : Value) : String := .ofList v.toChars

mutual

/-- Whether there is such a text. A member of that name hides the `toString` that every object
has. -/
def converts : Value → Bool
  | array vs => elementsConvert vs
  | object members => (members.lookup "toString").isNone
  | _ => true

def elementsConvert : List Value → Bool
  | [] => true
  | v :: vs => converts v && elementsConvert vs

end

@[simp] theorem toText_string (s : String) : (string s).toText = s := by
  rw [toText, toChars, String.ofList_toList]

end Value

section Write

def escapes : List (ℕ × Char) :=
  [(34, '"'), (92, '\\'), (8, 'b'), (9, 't'), (10, 'n'), (12, 'f'), (13, 'r')]

def hexEscape (n : ℕ) : List Char :=
  [Nat.digitChar (n / 4096 % 16), Nat.digitChar (n / 256 % 16), Nat.digitChar (n / 16 % 16),
    Nat.digitChar (n % 16)]

def escape (c : Char) : List Char :=
  match escapes.find? (fun p => p.1 = c.toNat) with
  | some p => ['\\', p.2]
  | none => if c.toNat < 32 then '\\' :: 'u' :: hexEscape c.toNat else [c]

def quote (s : String) : List Char := '"' :: (s.toList.flatMap escape ++ ['"'])

mutual

def write : Value → List Char
  | .null => ['n', 'u', 'l', 'l']
  | .bool true => ['t', 'r', 'u', 'e']
  | .bool false => ['f', 'a', 'l', 's', 'e']
  | .number d => d.text
  | .string s => quote s
  | .array [] => ['[', ']']
  | .array (v :: vs) => '[' :: (write v ++ writeElements vs)
  | .object [] => ['\x7b', '\x7d']
  | .object ((name, v) :: fields) => '\x7b' :: (quote name ++ ':' :: (write v ++ writeMembers fields))

def writeElements : List Value → List Char
  | [] => [']']
  | v :: vs => ',' :: (write v ++ writeElements vs)

def writeMembers : List (String × Value) → List Char
  | [] => ['\x7d']
  | (name, v) :: fields => ',' :: (quote name ++ ':' :: (write v ++ writeMembers fields))

end

def stringify (v : Value) : String := .ofList (write v)

end Write

section Read

def skip (cs : List Char) : List Char :=
  cs.dropWhile (fun c => c = ' ' || c = '\t' || c = '\n' || c = '\r')

def hexValue (c : Char) : Option ℕ :=
  if c.isDigit then some (c.toNat - 48)
  else if 'a' ≤ c ∧ c ≤ 'f' then some (c.toNat - 87)
  else if 'A' ≤ c ∧ c ≤ 'F' then some (c.toNat - 55)
  else none

def readHex : List Char → Option (ℕ × List Char)
  | a :: b :: c :: d :: cs =>
      match hexValue a, hexValue b, hexValue c, hexValue d with
      | some a, some b, some c, some d => some (((a * 16 + b) * 16 + c) * 16 + d, cs)
      | _, _, _, _ => none
  | _ => none

def unescape (c : Char) : Option ℕ :=
  if c = '/' then some 47 else (escapes.find? (fun p => p.2 = c)).map (·.1)

def readCodes : ℕ → List Char → Option (List ℕ × List Char)
  | 0, _ => none
  | _ + 1, [] => none
  | fuel + 1, c :: cs =>
      if c = '"' then some ([], cs)
      else if c = '\\' then
        match cs with
        | [] => none
        | e :: cs =>
            (if e = 'u' then readHex cs else (unescape e).map (fun n => (n, cs))).bind
              (fun (n, cs) => (readCodes fuel cs).map (fun (ns, cs) => (n :: ns, cs)))
      else if c.toNat < 32 then none
      else (readCodes fuel cs).map (fun (ns, cs) => (c.toNat :: ns, cs))

/-- The characters of the codes. A half of a pair that stands alone is no character and is
replaced. -/
def joinPairs : List ℕ → List Char
  | [] => []
  | [n] => [if 0xD800 ≤ n ∧ n < 0xE000 then Char.ofNat 0xFFFD else Char.ofNat n]
  | n :: m :: ns =>
      if 0xD800 ≤ n ∧ n < 0xDC00 ∧ 0xDC00 ≤ m ∧ m < 0xE000 then
        Char.ofNat (0x10000 + (n - 0xD800) * 0x400 + (m - 0xDC00)) :: joinPairs ns
      else (if 0xD800 ≤ n ∧ n < 0xE000 then Char.ofNat 0xFFFD else Char.ofNat n) :: joinPairs (m :: ns)

def readString (fuel : ℕ) (cs : List Char) : Option (String × List Char) :=
  (readCodes fuel cs).map (fun (ns, cs) => (.ofList (joinPairs ns), cs))

def readWord (word : List Char) (v : Value) (cs : List Char) : Option (Value × List Char) :=
  if word.isPrefixOf cs then some (v, cs.drop word.length) else none

mutual

def readValue : ℕ → List Char → Option (Value × List Char)
  | 0, _ => none
  | fuel + 1, cs =>
      match skip cs with
      | [] => none
      | c :: cs =>
          if c = '"' then (readString fuel cs).map (fun (s, cs) => (.string s, cs))
          else if c = '[' then
            match skip cs with
            | ']' :: cs => some (.array [], cs)
            | cs => (readValue fuel cs).bind (fun (v, cs) =>
                (readElements fuel cs).map (fun (vs, cs) => (.array (v :: vs), cs)))
          else if c = '\x7b' then
            match skip cs with
            | '\x7d' :: cs => some (.object [], cs)
            | cs => (readMember fuel cs).bind (fun (field, cs) =>
                (readMembers fuel cs).map (fun (fields, cs) => (.object (field :: fields), cs)))
          else if c = 'n' then readWord ['u', 'l', 'l'] .null cs
          else if c = 't' then readWord ['r', 'u', 'e'] (.bool true) cs
          else if c = 'f' then readWord ['a', 'l', 's', 'e'] (.bool false) cs
          else (read (c :: cs)).map (fun (d, cs) => (.number d, cs))

def readElements : ℕ → List Char → Option (List Value × List Char)
  | 0, _ => none
  | fuel + 1, cs =>
      match skip cs with
      | ']' :: cs => some ([], cs)
      | ',' :: cs => (readValue fuel cs).bind (fun (v, cs) =>
          (readElements fuel cs).map (fun (vs, cs) => (v :: vs, cs)))
      | _ => none

def readMember : ℕ → List Char → Option ((String × Value) × List Char)
  | 0, _ => none
  | fuel + 1, cs =>
      match skip cs with
      | '"' :: cs => (readString fuel cs).bind (fun (name, cs) =>
          match skip cs with
          | ':' :: cs => (readValue fuel cs).map (fun (v, cs) => ((name, v), cs))
          | _ => none)
      | _ => none

def readMembers : ℕ → List Char → Option (List (String × Value) × List Char)
  | 0, _ => none
  | fuel + 1, cs =>
      match skip cs with
      | '\x7d' :: cs => some ([], cs)
      | ',' :: cs => (readMember fuel cs).bind (fun (field, cs) =>
          (readMembers fuel cs).map (fun (fields, cs) => (field :: fields, cs)))
      | _ => none

end

/-- The value that a text writes, if it is a JSON text. Each call reads at least a character,
so that the fuel is enough. -/
def parse (s : String) : Option Value :=
  match readValue (s.toList.length + 1) s.toList with
  | some (v, cs) => if skip cs = [] then some v else none
  | none => none

end Read

section Strings

variable {rest : List Char} {fuel : ℕ}

theorem hexValue_digitChar {n : ℕ} (hn : n < 16) : hexValue (Nat.digitChar n) = some n := by
  interval_cases n <;> rfl

theorem readHex_hexEscape {n : ℕ} (hn : n < 65536) :
    readHex (hexEscape n ++ rest) = some (n, rest) := by
  simp only [hexEscape, List.cons_append, List.nil_append, readHex,
    hexValue_digitChar (Nat.mod_lt _ (by norm_num : 0 < 16))]
  congr 2
  omega

theorem unescape_escapes : ∀ p ∈ escapes, unescape p.2 = some p.1 ∧ p.2 ≠ 'u' := by decide

theorem mem_escapes {c : Char} {p : ℕ × Char}
    (h : escapes.find? (fun p => p.1 = c.toNat) = some p) : p ∈ escapes ∧ p.1 = c.toNat := by
  have hcode := List.find?_some h
  exact ⟨List.mem_of_find?_eq_some h, of_decide_eq_true hcode⟩

theorem not_escaped {c : Char} (h : escapes.find? (fun p => p.1 = c.toNat) = none) :
    c ≠ '"' ∧ c ≠ '\\' := by
  have hnone := List.find?_eq_none.mp h
  refine ⟨?_, ?_⟩
  · rintro rfl
    exact hnone (34, '"') (by decide) rfl
  · rintro rfl
    exact hnone (92, '\\') (by decide) rfl

theorem readCodes_escape (c : Char) : readCodes (fuel + 1) (escape c ++ rest) =
    (readCodes fuel rest).map (fun (ns, cs) => (c.toNat :: ns, cs)) := by
  rw [escape]
  split
  · rename_i p hp
    obtain ⟨hm, hcode⟩ := mem_escapes hp
    obtain ⟨hread, hu⟩ := unescape_escapes p hm
    simp [readCodes, hu, hread, hcode]
  · rename_i hnone
    obtain ⟨hquote, hslash⟩ := not_escaped hnone
    split
    · have hhex : readHex (hexEscape c.toNat ++ rest) = some (c.toNat, rest) :=
        readHex_hexEscape (by omega)
      simp [readCodes, hhex]
    · rename_i hcontrol
      simp [readCodes, hquote, hslash, hcontrol]

theorem length_escape_pos (c : Char) : 0 < (escape c).length := by
  rw [escape]
  split
  · simp
  · split <;> simp

theorem readCodes_text (cs : List Char) (hfuel : (cs.flatMap escape).length < fuel) :
    readCodes fuel (cs.flatMap escape ++ '"' :: rest) = some (cs.map Char.toNat, rest) := by
  induction cs generalizing fuel with
  | nil =>
    cases fuel with
    | zero => simp at hfuel
    | succ fuel => simp [readCodes]
  | cons c cs ih =>
    have hpos := length_escape_pos c
    rw [List.flatMap_cons, List.length_append] at hfuel
    cases fuel with
    | zero => omega
    | succ fuel =>
      rw [List.flatMap_cons, List.append_assoc, readCodes_escape, ih (by omega)]
      rfl

theorem not_half (c : Char) : ¬ (0xD800 ≤ c.toNat ∧ c.toNat < 0xE000) := by
  obtain h | h := c.valid
  · exact fun hc => absurd h (not_lt.mpr hc.1)
  · exact fun hc => absurd h.1 (by have := hc.2; simp only [Char.toNat] at this; omega)

theorem joinPairs_toNat (cs : List Char) : joinPairs (cs.map Char.toNat) = cs := by
  induction cs with
  | nil => rfl
  | cons c cs ih =>
    have hc := not_half c
    cases cs with
    | nil => simp only [List.map_cons, List.map_nil, joinPairs, if_neg hc, Char.ofNat_toNat]
    | cons d cs =>
      have hpair : ¬ (0xD800 ≤ c.toNat ∧ c.toNat < 0xDC00 ∧ 0xDC00 ≤ d.toNat ∧ d.toNat < 0xE000) :=
        fun h => hc ⟨h.1, by omega⟩
      simp only [List.map_cons, joinPairs, if_neg hc, if_neg hpair, Char.ofNat_toNat]
      rw [List.map_cons] at ih
      rw [ih]

theorem readString_quote (s : String) (hfuel : (quote s).length ≤ fuel + 1) :
    readString fuel ((quote s).tail ++ rest) = some (s, rest) := by
  simp only [quote, List.length_cons, List.length_append, List.length_nil] at hfuel
  have hcodes : readCodes fuel (s.toList.flatMap escape ++ '"' :: rest) =
      some (s.toList.map Char.toNat, rest) := readCodes_text _ (by omega)
  simp only [readString, quote, List.tail_cons, List.append_assoc, List.singleton_append,
    hcodes, Option.map_some, joinPairs_toNat, String.ofList_toList]

end Strings

section RoundTrip

variable {rest : List Char} {fuel : ℕ}

def Blank (c : Char) : Bool := c = ' ' || c = '\t' || c = '\n' || c = '\r'

theorem skip_cons {c : Char} (hc : Blank c = false) : skip (c :: rest) = c :: rest := by
  rw [skip, List.dropWhile_cons_of_neg]
  simpa [Blank] using hc

def Closes (rest : List Char) : Prop := ∀ c ∈ rest.head?, c = ',' ∨ c = ']' ∨ c = '\x7d'

theorem Closes.stops (h : Closes rest) : Stops rest := by
  intro c hc
  obtain rfl | rfl | rfl := h c hc <;> decide

theorem closes_writeElements (vs : List Value) : Closes (writeElements vs ++ rest) := by
  cases vs with
  | nil => simp [writeElements, Closes]
  | cons v vs => simp [writeElements, Closes]

theorem closes_writeMembers (fields : List (String × Value)) : Closes (writeMembers fields ++ rest) := by
  cases fields with
  | nil => simp [writeMembers, Closes]
  | cons field fields => simp [writeMembers, Closes]

theorem number_first {c : Char} (h : c = '-' ∨ c.isDigit = true) : Blank c = false ∧ c ≠ '"' ∧
    c ≠ '[' ∧ c ≠ ']' ∧ c ≠ '\x7b' ∧ c ≠ 'n' ∧ c ≠ 't' ∧ c ≠ 'f' := by
  obtain rfl | h := h
  · decide
  · have hne : ∀ d : Char, d.isDigit = false → c ≠ d := fun d hd he => by simp [← he, h] at hd
    refine ⟨?_, hne _ rfl, hne _ rfl, hne _ rfl, hne _ rfl, hne _ rfl, hne _ rfl, hne _ rfl⟩
    simp [Blank, hne ' ' rfl, hne '\t' rfl, hne '\n' rfl, hne '\r' rfl]

theorem write_first (v : Value) : ∃ c cs, write v = c :: cs ∧ Blank c = false ∧ c ≠ ']' := by
  cases v with
  | null => exact ⟨_, _, rfl, rfl, by decide⟩
  | bool b => cases b <;> exact ⟨_, _, rfl, rfl, by decide⟩
  | number d =>
    obtain ⟨c, cs, htext, hc⟩ := d.head_text
    obtain ⟨hblank, _, _, hclose, _⟩ := number_first hc
    exact ⟨c, cs, htext, hblank, hclose⟩
  | string s => exact ⟨_, _, rfl, rfl, by decide⟩
  | array vs => cases vs <;> exact ⟨_, _, rfl, rfl, by decide⟩
  | object fields =>
    cases fields with
    | nil => exact ⟨_, _, rfl, rfl, by decide⟩
    | cons field fields => exact ⟨_, _, rfl, rfl, by decide⟩

theorem quote_cons (s : String) : quote s = '"' :: (quote s).tail := rfl

theorem readMember_text {name : String} {v : Value}
    (hfuel : (quote name ++ ':' :: write v).length ≤ fuel + 1)
    (hv : readValue fuel (write v ++ rest) = some (v, rest)) :
    readMember (fuel + 1) (quote name ++ ':' :: (write v ++ rest)) = some ((name, v), rest) := by
  have hlen : (quote name).length ≤ fuel + 1 := by
    rw [List.length_append] at hfuel
    omega
  rw [quote_cons, List.cons_append, readMember, skip_cons rfl]
  simp only [readString_quote name hlen, Option.bind_some, skip_cons (rfl : Blank ':' = false), hv,
    Option.map_some]

mutual

/-- The parser reads what was written, whatever closes the value. -/
theorem readValue_write : ∀ (v : Value) (fuel : ℕ) (rest : List Char), (write v).length ≤ fuel →
    Closes rest → readValue fuel (write v ++ rest) = some (v, rest)
  | v, 0, _, hfuel, _ => by
      obtain ⟨c, cs, hwrite, _⟩ := write_first v
      simp [hwrite] at hfuel
  | .null, fuel + 1, rest, _, _ => by
      simp [write, readValue, skip_cons, Blank, readWord]
  | .bool true, fuel + 1, rest, _, _ => by
      simp [write, readValue, skip_cons, Blank, readWord]
  | .bool false, fuel + 1, rest, _, _ => by
      simp [write, readValue, skip_cons, Blank, readWord]
  | .number d, fuel + 1, rest, _, hrest => by
      obtain ⟨c, cs, htext, hc⟩ := d.head_text
      obtain ⟨hblank, hquote, harray, _, hobject, hn, ht, hf⟩ := number_first hc
      have hread := d.read_text hrest.stops
      rw [htext, List.cons_append] at hread
      rw [write, htext, List.cons_append, readValue, skip_cons hblank]
      simp only [hquote, harray, hobject, hn, ht, hf, if_false, hread, Option.map_some]
  | .string s, fuel + 1, rest, hfuel, _ => by
      rw [write] at hfuel ⊢
      rw [quote_cons, List.cons_append, readValue, skip_cons rfl]
      simp only [if_true, readString_quote s hfuel, Option.map_some]
  | .array [], fuel + 1, rest, _, _ => by
      simp [write, readValue, skip_cons, Blank]
  | .array (v :: vs), fuel + 1, rest, hfuel, _ => by
      simp only [write, List.length_cons, List.length_append] at hfuel
      have hv := readValue_write v fuel (writeElements vs ++ rest) (by omega) (closes_writeElements vs)
      have hvs := readElements_write vs fuel rest (by omega)
      obtain ⟨c, cs, hwrite, hblank, hclose⟩ := write_first v
      rw [write, List.cons_append, List.append_assoc, readValue, skip_cons rfl]
      rw [hwrite, List.cons_append] at hv ⊢
      simp [skip_cons hblank, hclose, hv, hvs]
  | .object [], fuel + 1, rest, _, _ => by
      simp [write, readValue, skip_cons, Blank]
  | .object ((name, v) :: fields), fuel + 1, rest, hfuel, _ => by
      simp only [write, List.length_cons, List.length_append] at hfuel
      cases fuel with
      | zero => omega
      | succ fuel =>
        have hv := readValue_write v fuel (writeMembers fields ++ rest) (by omega)
          (closes_writeMembers fields)
        have hfields := readMembers_write fields (fuel + 1) rest (by omega)
        have hmember : readMember (fuel + 1)
            (quote name ++ ':' :: (write v ++ (writeMembers fields ++ rest))) =
              some ((name, v), writeMembers fields ++ rest) :=
          readMember_text (by rw [List.length_append, List.length_cons]; omega) hv
        rw [write, List.cons_append, List.append_assoc, List.cons_append, List.append_assoc, readValue,
          skip_cons rfl]
        rw [quote_cons, List.cons_append] at hmember ⊢
        simp [skip_cons, Blank, hmember, hfields]

theorem readElements_write : ∀ (vs : List Value) (fuel : ℕ) (rest : List Char),
    (writeElements vs).length ≤ fuel →
    readElements fuel (writeElements vs ++ rest) = some (vs, rest)
  | vs, 0, _, hfuel => by cases vs <;> simp [writeElements] at hfuel
  | [], fuel + 1, rest, _ => by simp [writeElements, readElements, skip_cons, Blank]
  | v :: vs, fuel + 1, rest, hfuel => by
      simp only [writeElements, List.length_cons, List.length_append] at hfuel
      have hv := readValue_write v fuel (writeElements vs ++ rest) (by omega) (closes_writeElements vs)
      have hvs := readElements_write vs fuel rest (by omega)
      rw [writeElements, List.cons_append, List.append_assoc, readElements, skip_cons rfl]
      simp only [hv, hvs, Option.bind_some, Option.map_some]

theorem readMembers_write : ∀ (fields : List (String × Value)) (fuel : ℕ) (rest : List Char),
    (writeMembers fields).length ≤ fuel →
    readMembers fuel (writeMembers fields ++ rest) = some (fields, rest)
  | fields, 0, _, hfuel => by cases fields <;> simp [writeMembers] at hfuel
  | [], fuel + 1, rest, _ => by simp [writeMembers, readMembers, skip_cons, Blank]
  | (name, v) :: fields, fuel + 1, rest, hfuel => by
      simp only [writeMembers, List.length_cons, List.length_append] at hfuel
      cases fuel with
      | zero => omega
      | succ fuel =>
        have hv := readValue_write v fuel (writeMembers fields ++ rest) (by omega)
          (closes_writeMembers fields)
        have hfields := readMembers_write fields (fuel + 1) rest (by omega)
        have hmember : readMember (fuel + 1)
            (quote name ++ ':' :: (write v ++ (writeMembers fields ++ rest))) =
              some ((name, v), writeMembers fields ++ rest) :=
          readMember_text (by rw [List.length_append, List.length_cons]; omega) hv
        rw [writeMembers, List.cons_append, List.append_assoc, List.cons_append, List.append_assoc,
          readMembers, skip_cons rfl]
        simp only [hmember, hfields, Option.bind_some, Option.map_some]

end

/-- `JSON.parse` undoes `JSON.stringify`. -/
@[simp] theorem parse_stringify (v : Value) : parse (stringify v) = some v := by
  have hread := readValue_write v ((write v).length + 1) [] (by omega) (by rintro c ⟨⟩)
  rw [List.append_nil] at hread
  simp only [parse, stringify, String.toList_ofList, hread]
  rfl

def startsWith (c : Char) (s : String) : Bool := s.toList.head? = some c

@[simp] theorem startsWith_stringify (c : Char) (v : Value) :
    startsWith c (stringify v) = decide ((write v).head? = some c) := by
  simp [startsWith, stringify]

theorem head_write_string (s : String) : (write (.string s)).head? = some '"' := by
  rw [write, quote_cons]
  rfl

theorem head_write_object (members : List (String × Value)) :
    (write (.object members)).head? = some '\x7b' := by
  cases members <;> rfl

theorem head_write_quote (v : Value) : (write v).head? = some '"' ↔ v.isString = true := by
  cases v with
  | null => decide
  | bool b => cases b <;> decide
  | number d =>
    obtain ⟨c, cs, htext, hc⟩ := d.head_text
    obtain ⟨_, hquote, _⟩ := number_first hc
    simp [write, htext, hquote, Value.isString]
  | string s => simp [head_write_string, Value.isString]
  | array vs => cases vs <;> simp [write, Value.isString]
  | object members => simp [head_write_object, Value.isString]

end RoundTrip

end EcommerceService.JsonText
