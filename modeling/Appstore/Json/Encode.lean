import Appstore.Json.Value

namespace Appstore.Json

def numberChar (c : Char) : Bool :=
  c.isDigit || c = '-' || c = '+' || c = '.' || c = 'e' || c = 'E'

def allDigits (cs : List Char) : Bool := !cs.isEmpty && cs.all Char.isDigit

def intPart : List Char → Bool
  | ['0'] => true
  | c :: cs => c != '0' && allDigits (c :: cs)
  | [] => false

def expPart : List Char → Bool
  | [] => true
  | 'e' :: '+' :: ds | 'e' :: '-' :: ds | 'E' :: '+' :: ds | 'E' :: '-' :: ds => allDigits ds
  | 'e' :: ds | 'E' :: ds => allDigits ds
  | _ => false

def fracExpPart : List Char → Bool
  | '.' :: r => allDigits (r.takeWhile Char.isDigit) && expPart (r.dropWhile Char.isDigit)
  | r => expPart r

/-- JSON's number syntax, `-?(0|[1-9][0-9]*)(\.[0-9]+)?([eE][+-]?[0-9]+)?`, which
the `encoding/json` scanner enforces before `strconv.ParseFloat` runs. -/
def numberLiteral (cs : List Char) : Bool :=
  let body := match cs with
    | '-' :: r => r
    | r => r
  intPart (body.takeWhile Char.isDigit) && fracExpPart (body.dropWhile Char.isDigit)

/-- What `encoding/json` does with a `float64` through `strconv`: the literal it
writes and the value `ParseFloat` reads back. For finite floats Go writes the
shortest literal that reads back to the same float, in JSON's number syntax;
the two laws are that guarantee. -/
structure NumberFormat (N : Type) where
  format : N → List Char
  parse : List Char → Option N
  parse_format : ∀ n, parse (format n) = some n
  format_literal : ∀ n, numberLiteral (format n) = true

def digitChar (d : Nat) : Char := Char.ofNat (48 + d)

def decimalAux : Nat → Nat → List Char → List Char
  | 0, _, acc => acc
  | fuel + 1, n, acc =>
    if n < 10 then digitChar n :: acc else decimalAux fuel (n / 10) (digitChar (n % 10) :: acc)

def decimal (n : Nat) : List Char := decimalAux (n + 1) n []

def digitStep (acc : Nat) (c : Char) : Nat := acc * 10 + (c.toNat - 48)

def readDecimal (cs : List Char) : Nat := cs.foldl digitStep 0

theorem digitChar_toNat_all : ∀ d, d < 10 → (digitChar d).toNat = 48 + d := by decide

theorem digitChar_toNat {d : Nat} (h : d < 10) : (digitChar d).toNat = 48 + d :=
  digitChar_toNat_all d h

theorem foldl_decimalAux (fuel n : Nat) (acc : List Char) (h : n < fuel) :
    (decimalAux fuel n acc).foldl digitStep 0 = acc.foldl digitStep n := by
  induction fuel generalizing n acc with
  | zero => omega
  | succ f ih =>
    simp only [decimalAux]
    split
    · simp [digitStep, digitChar_toNat ‹n < 10›]
    · rw [ih _ _ (by omega)]
      have hn : n / 10 * 10 + n % 10 = n := by omega
      simp [digitStep, digitChar_toNat (Nat.mod_lt n (by omega)), hn]

theorem digitChar_isDigit_all : ∀ d, d < 10 → (digitChar d).isDigit = true := by decide

theorem digitChar_eq_zero_all : ∀ d, d < 10 → digitChar d = '0' → d = 0 := by decide

theorem decimalAux_digits (fuel n : Nat) (acc : List Char) (hacc : ∀ c ∈ acc, c.isDigit = true) :
    ∀ c ∈ decimalAux fuel n acc, c.isDigit = true := by
  induction fuel generalizing n acc with
  | zero => exact hacc
  | succ f ih =>
    simp only [decimalAux]
    split
    · simpa [digitChar_isDigit_all n ‹n < 10›] using hacc
    · exact ih _ _ (by simpa [digitChar_isDigit_all _ (Nat.mod_lt n (by omega))] using hacc)

theorem decimalAux_lead (fuel n : Nat) (acc : List Char) (h : n < fuel) :
    ∃ d rest, d < 10 ∧ (d = 0 → n = 0) ∧ decimalAux fuel n acc = digitChar d :: rest := by
  induction fuel generalizing n acc with
  | zero => omega
  | succ f ih =>
    simp only [decimalAux]
    split
    · exact ⟨n, acc, ‹n < 10›, id, rfl⟩
    · obtain ⟨d, rest, hd, h0, he⟩ := ih (n / 10) (digitChar (n % 10) :: acc) (by omega)
      exact ⟨d, rest, hd, fun e ↦ absurd (h0 e) (by omega), he⟩

theorem digitChar_ne_minus_all : ∀ d, d < 10 → digitChar d ≠ '-' := by decide

theorem numberLiteral_decimal (n : Nat) : numberLiteral (decimal n) = true := by
  obtain ⟨d, rest, hd, h0, he⟩ := decimalAux_lead (n + 1) n [] (by omega)
  by_cases hz : d = 0
  · obtain rfl := h0 hz
    rfl
  have hall := decimalAux_digits (n + 1) n [] (by simp)
  have hc : digitChar d ≠ '0' := fun e ↦ hz (digitChar_eq_zero_all d hd e)
  have hm := digitChar_ne_minus_all d hd
  show numberLiteral (decimalAux (n + 1) n []) = true
  rw [he] at hall ⊢
  have htake : (digitChar d :: rest).takeWhile Char.isDigit = digitChar d :: rest :=
    List.takeWhile_eq_self_iff.2 hall
  have hdrop : (digitChar d :: rest).dropWhile Char.isDigit = [] := List.dropWhile_eq_nil_iff.2 hall
  unfold numberLiteral
  split
  · rename_i h; exact absurd (List.cons.inj h).1 hm
  · show (intPart _ && fracExpPart _) = true
    rw [htake, hdrop, intPart.eq_2 _ _ fun h _ ↦ hc h, show fracExpPart [] = true from rfl, Bool.and_true]
    simpa [hc, allDigits] using hall

theorem readDecimal_decimal (n : Nat) : readDecimal (decimal n) = n :=
  foldl_decimalAux (n + 1) n [] (by omega)

/-- Whole numbers below `10^21`, which `strconv` writes as plain decimal digits. -/
def decimalFormat : NumberFormat Nat where
  format := decimal
  parse cs := if decimal (readDecimal cs) = cs then some (readDecimal cs) else none
  parse_format n := by simp [readDecimal_decimal]
  format_literal := numberLiteral_decimal

abbrev NumberLiteral := {cs : List Char // numberLiteral cs = true}

/-- Numbers kept as the literal read, fractions and exponents included, as
`json.Number` keeps them. -/
def literalFormat : NumberFormat NumberLiteral where
  format n := n.1
  parse cs := if h : numberLiteral cs then some ⟨cs, h⟩ else none
  parse_format n := dif_pos n.2
  format_literal n := n.2

def hexDigit (d : Nat) : Char := if d < 10 then Char.ofNat (48 + d) else Char.ofNat (87 + d)

def unicodeEscape (n : Nat) : List Char :=
  ['\\', 'u', hexDigit (n / 4096 % 16), hexDigit (n / 256 % 16), hexDigit (n / 16 % 16),
    hexDigit (n % 16)]

/-- Characters `json.Marshal` writes as `\u` escapes: control characters, the HTML
characters `<`, `>`, `&`, and the line and paragraph separators. -/
def needsUnicodeEscape (c : Char) : Bool :=
  c.toNat < 0x20 || c = '<' || c = '>' || c = '&' || c.toNat = 0x2028 || c.toNat = 0x2029

/-- One character of a string as `json.Marshal` writes it (Go 1.22 and later). -/
def escapeChar (c : Char) : List Char :=
  if c = '"' then ['\\', '"']
  else if c = '\\' then ['\\', '\\']
  else if c = '\n' then ['\\', 'n']
  else if c = '\r' then ['\\', 'r']
  else if c = '\t' then ['\\', 't']
  else if c = '\x08' then ['\\', 'b']
  else if c = '\x0c' then ['\\', 'f']
  else if needsUnicodeEscape c then unicodeEscape c.toNat
  else [c]

def escapeChars : List Char → List Char
  | [] => []
  | c :: cs => escapeChar c ++ escapeChars cs

def quote (s : String) : List Char := '"' :: escapeChars s.toList ++ ['"']

variable {N : Type} (nf : NumberFormat N)

mutual
/-- `json.Marshal` of a value held in `interface{}`. Objects are written in list
order, which for a Go map (`Sorted`) is the sorted key order Go uses. -/
def marshal : Value N → List Char
  | .null => ['n', 'u', 'l', 'l']
  | .bool true => ['t', 'r', 'u', 'e']
  | .bool false => ['f', 'a', 'l', 's', 'e']
  | .number n => nf.format n
  | .string s => quote s
  | .array [] => ['[', ']']
  | .array (x :: xs) => '[' :: marshal x ++ marshalElems xs
  | .object [] => ['{', '}']
  | .object ((k, v) :: fs) => '{' :: quote k ++ ':' :: marshal v ++ marshalMembers fs

def marshalElems : List (Value N) → List Char
  | [] => [']']
  | x :: xs => ',' :: marshal x ++ marshalElems xs

def marshalMembers : Fields N → List Char
  | [] => ['}']
  | (k, v) :: fs => ',' :: quote k ++ ':' :: marshal v ++ marshalMembers fs
end

def mapValue : Option (Fields N) → Value N
  | none => .null
  | some fs => .object fs

def mapIsEmpty : Option (Fields N) → Bool
  | none => true
  | some fs => fs.isEmpty

/-- `structEncoder.encode`: each field written is `"tag":` and its value's text,
the first after `{` and the others after `,`; `{}` when none is. -/
def structText (next : Char) : List (String × List Char) → List Char
  | [] => if next = '{' then ['{', '}'] else ['}']
  | (tag, raw) :: ms => next :: quote tag ++ ':' :: raw ++ structText ',' ms

def marshalStruct (ms : List (String × List Char)) : List Char := structText '{' ms

/-- A field tagged `omitempty`: left out when its value is empty. -/
def omitEmpty (empty : Bool) (tag : String) (v : Value N) : Fields N :=
  if empty then [] else [(tag, v)]

theorem structText_comma (fs : Fields N) :
    structText ',' (fs.map fun m ↦ (m.1, marshal nf m.2)) = marshalMembers nf fs := by
  induction fs with
  | nil => rfl
  | cons m fs ih => simp only [List.map_cons, structText, marshalMembers, ih]

theorem marshalStruct_map (fs : Fields N) :
    marshalStruct (fs.map fun m ↦ (m.1, marshal nf m.2)) = marshal nf (.object fs) := by
  cases fs with
  | nil => rfl
  | cons m fs => simp only [marshalStruct, List.map_cons, structText, structText_comma, marshal]

end Appstore.Json
