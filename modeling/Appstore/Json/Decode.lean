import Appstore.Json.Encode

namespace Appstore.Json

def isSpace (c : Char) : Bool := c = ' ' || c = '\t' || c = '\n' || c = '\r'

def skipWs (cs : List Char) : List Char := cs.dropWhile isSpace

def endOfInput : String := "unexpected end of JSON input"

def invalidChar (c : Char) (context : String) : String :=
  "invalid character '" ++ c.toString ++ "' " ++ context

def hexVal (c : Char) : Option Nat :=
  if c.isDigit then some (c.toNat - 48)
  else if 'a' ≤ c ∧ c ≤ 'f' then some (c.toNat - 87)
  else if 'A' ≤ c ∧ c ≤ 'F' then some (c.toNat - 55)
  else none

def hex4 (a b c d : Char) : Option Nat := do
  let a ← hexVal a
  let b ← hexVal b
  let c ← hexVal c
  let d ← hexVal d
  pure (((a * 16 + b) * 16 + c) * 16 + d)

def isSurrogate (r : Nat) : Bool := 0xD800 ≤ r && r < 0xE000

def replacementChar : Char := '�'

def decodeSurrogates (r1 r2 : Nat) : Option Char :=
  if 0xD800 ≤ r1 ∧ r1 < 0xDC00 ∧ 0xDC00 ≤ r2 ∧ r2 < 0xE000 then
    some (Char.ofNat (0x10000 + (r1 - 0xD800) * 0x400 + (r2 - 0xDC00)))
  else none

def simpleEscape : Char → Option Char
  | '"' => some '"'
  | '\\' => some '\\'
  | '/' => some '/'
  | 'b' => some '\x08'
  | 'f' => some '\x0c'
  | 'n' => some '\n'
  | 'r' => some '\r'
  | 't' => some '\t'
  | _ => none

/-- A piece of a string literal: a character, or a `\u` escape of a UTF-16
surrogate that may pair with the next piece. -/
inductive Piece
  | char (c : Char)
  | surrogate (r : Nat)
  deriving DecidableEq, Repr

def unitPiece (r : Nat) : Piece := if isSurrogate r then .surrogate r else .char (Char.ofNat r)

/-- The body of a string literal after its opening quote, up to and including the
closing quote, as the `encoding/json` scanner accepts it. -/
def lexString : List Char → Except String (List Piece × List Char)
  | [] => .error endOfInput
  | '"' :: r => .ok ([], r)
  | '\\' :: 'u' :: a :: b :: c :: d :: r =>
    match hex4 a b c d with
    | some n => (lexString r).map fun p ↦ (unitPiece n :: p.1, p.2)
    | none =>
      .error (invalidChar (([a, b, c, d].find? (hexVal · = none)).getD a)
        "in \\u hexadecimal character escape")
  | '\\' :: e :: r =>
    match simpleEscape e with
    | some ch => (lexString r).map fun p ↦ (.char ch :: p.1, p.2)
    | none => .error (invalidChar e "in string escape code")
  | ['\\'] => .error endOfInput
  | c :: r =>
    if c.toNat < 0x20 then .error (invalidChar c "in string literal")
    else (lexString r).map fun p ↦ (.char c :: p.1, p.2)

/-- `unquote`'s handling of surrogates: a high surrogate followed by a low one is
one code point, any other surrogate is U+FFFD. The argument is a pending high
surrogate. -/
def joinPieces : Option Nat → List Piece → List Char
  | none, [] => []
  | some _, [] => [replacementChar]
  | none, .char c :: ps => c :: joinPieces none ps
  | none, .surrogate r :: ps =>
    if r < 0xDC00 then joinPieces (some r) ps else replacementChar :: joinPieces none ps
  | some _, .char c :: ps => replacementChar :: c :: joinPieces none ps
  | some h, .surrogate r :: ps =>
    match decodeSurrogates h r with
    | some ch => ch :: joinPieces none ps
    | none => replacementChar :: joinPieces (some r) ps

def parseString (cs : List Char) : Except String (List Char × List Char) :=
  (lexString cs).map fun p ↦ (joinPieces none p.1, p.2)

/-- A parse tree: numbers keep their literal. -/
abbrev Doc := Value (List Char)

/-- A number literal: the longest run of number characters, which must be in
JSON's number syntax. -/
def parseNumber (cs : List Char) : Except String (Doc × List Char) :=
  let lit := cs.takeWhile numberChar
  if numberLiteral lit then .ok (.number lit, cs.dropWhile numberChar)
  else .error (invalidChar (lit.headD ' ') "in numeric literal")

mutual
def parseValue : Nat → List Char → Except String (Doc × List Char)
  | 0, _ => .error endOfInput
  | fuel + 1, cs =>
    match skipWs cs with
    | 'n' :: 'u' :: 'l' :: 'l' :: r => .ok (.null, r)
    | 't' :: 'r' :: 'u' :: 'e' :: r => .ok (.bool true, r)
    | 'f' :: 'a' :: 'l' :: 's' :: 'e' :: r => .ok (.bool false, r)
    | '"' :: r => (parseString r).map fun p ↦ (.string (String.mk p.1), p.2)
    | '[' :: r =>
      match skipWs r with
      | ']' :: r' => .ok (.array [], r')
      | _ => (parseElems fuel r).map fun p ↦ (.array p.1, p.2)
    | '{' :: r =>
      match skipWs r with
      | '}' :: r' => .ok (.object [], r')
      | _ => (parseMembers fuel r).map fun p ↦ (.object p.1, p.2)
    | c :: r =>
      if c = '-' ∨ c.isDigit then parseNumber (c :: r)
      else .error (invalidChar c "looking for beginning of value")
    | [] => .error endOfInput

def parseElems : Nat → List Char → Except String (List Doc × List Char)
  | 0, _ => .error endOfInput
  | fuel + 1, cs => do
    let (v, r) ← parseValue fuel cs
    match skipWs r with
    | ',' :: r' => (parseElems fuel r').map fun p ↦ (v :: p.1, p.2)
    | ']' :: r' => .ok ([v], r')
    | c :: _ => .error (invalidChar c "after array element")
    | [] => .error endOfInput

def parseMembers : Nat → List Char → Except String (Fields (List Char) × List Char)
  | 0, _ => .error endOfInput
  | fuel + 1, cs =>
    match skipWs cs with
    | '"' :: r => do
      let (k, r) ← parseString r
      match skipWs r with
      | ':' :: r => do
        let (v, r) ← parseValue fuel r
        match skipWs r with
        | ',' :: r' => (parseMembers fuel r').map fun p ↦ ((String.mk k, v) :: p.1, p.2)
        | '}' :: r' => .ok ([(String.mk k, v)], r')
        | c :: _ => .error (invalidChar c "after object key:value pair")
        | [] => .error endOfInput
      | c :: _ => .error (invalidChar c "after object key")
      | [] => .error endOfInput
    | c :: _ => .error (invalidChar c "looking for beginning of object key string")
    | [] => .error endOfInput
end

def parse (cs : List Char) : Except String Doc := do
  let (v, r) ← parseValue (cs.length + 1) cs
  match skipWs r with
  | [] => pure v
  | c :: _ => .error (invalidChar c "after top-level value")

variable {N : Type} (nf : NumberFormat N)

def numberError (lit : List Char) (goType : String) : String :=
  "json: cannot unmarshal number " ++ String.mk lit ++ " into Go value of type " ++ goType

mutual
/-- Decoding a parse tree into `interface{}`: every object becomes a map, a
repeated key keeping its last value, and every number a `float64`. The error is
the first literal `strconv.ParseFloat` rejects. -/
def Value.toAny : Doc → Except (List Char) (Value N)
  | .null => .ok .null
  | .bool b => .ok (.bool b)
  | .number lit =>
    match nf.parse lit with
    | some n => .ok (.number n)
    | none => .error lit
  | .string s => .ok (.string s)
  | .array xs => (toAnyList xs).map .array
  | .object fs => (toAnyFields [] fs).map .object

def toAnyList : List Doc → Except (List Char) (List (Value N))
  | [] => .ok []
  | x :: xs => do
    let v ← x.toAny
    let vs ← toAnyList xs
    pure (v :: vs)

def toAnyFields (acc : Fields N) : Fields (List Char) → Except (List Char) (Fields N)
  | [] => .ok acc
  | (k, v) :: fs => do
    let v ← v.toAny
    toAnyFields (acc.insert k v) fs
end

def unmarshalAny (cs : List Char) : Except String (Value N) := do
  let d ← parse cs
  (d.toAny nf).mapError (numberError · "float64")

mutual
theorem toAny_isAny : ∀ (d : Doc) {v : Value N}, d.toAny nf = .ok v → v.IsAny
  | .null, _, h | .bool _, _, h | .string _, _, h => by cases h; trivial
  | .number lit, _, h => by
    simp only [Value.toAny] at h
    split at h <;> cases h
    trivial
  | .array xs, _, h => by
    simp only [Value.toAny] at h
    rcases e : toAnyList nf xs with _ | vs <;> rw [e] at h <;> cases h
    exact toAnyList_isAny xs e
  | .object fs, _, h => by
    simp only [Value.toAny] at h
    rcases e : toAnyFields nf [] fs with _ | out <;> rw [e] at h <;> cases h
    exact toAnyFields_isAny [] fs ⟨List.Pairwise.nil, trivial⟩ e

theorem toAnyList_isAny : ∀ (ds : List Doc) {vs : List (Value N)}, toAnyList nf ds = .ok vs → ListIsAny vs
  | [], _, h => by cases h; trivial
  | d :: ds, _, h => by
    simp only [toAnyList, bind, Except.bind] at h
    rcases e : d.toAny nf with _ | v <;> rw [e] at h
    · cases h
    rcases e' : toAnyList nf ds with _ | vs <;> rw [e'] at h <;> cases h
    exact ⟨toAny_isAny d e, toAnyList_isAny ds e'⟩

theorem toAnyFields_isAny : ∀ (acc : Fields N) (fs : Fields (List Char)) {out : Fields N},
    (Value.object acc).IsAny → toAnyFields nf acc fs = .ok out → (Value.object out).IsAny
  | _, [], _, ha, h => by cases h; exact ha
  | acc, (k, d) :: fs, _, ha, h => by
    simp only [toAnyFields, bind, Except.bind] at h
    rcases e : d.toAny nf with _ | v <;> rw [e] at h
    · cases h
    · exact toAnyFields_isAny _ fs (ha.insert k (toAny_isAny d e)) h
end

theorem unmarshalAny_isAny {cs : List Char} {v : Value N} (h : unmarshalAny nf cs = .ok v) : v.IsAny := by
  simp only [unmarshalAny, bind, Except.bind] at h
  rcases e : parse cs with _ | d <;> rw [e] at h
  · cases h
  · rcases e' : d.toAny nf with _ | v <;> simp only [e', Except.mapError] at h <;> cases h
    exact toAny_isAny nf d e'

end Appstore.Json
