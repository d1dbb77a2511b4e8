import Appstore.Json.Decode

namespace Appstore.Json

/-- The text of the value at the start of `cs`, white space skipped: the bytes the
decoder hands to `json.RawMessage` and to `UnmarshalJSON`. -/
def valueText (fuel : Nat) (cs : List Char) : Except String (List Char × List Char) :=
  (parseValue fuel cs).map fun p ↦ ((skipWs cs).take ((skipWs cs).length - p.2.length), p.2)

def rawMembers : Nat → List Char → Except String (List (String × List Char))
  | 0, _ => .error endOfInput
  | fuel + 1, cs =>
    match skipWs cs with
    | '"' :: r => do
      let (k, r) ← parseString r
      match skipWs r with
      | ':' :: r => do
        let (v, r) ← valueText fuel r
        match skipWs r with
        | ',' :: r => ((String.mk k, v) :: ·) <$> rawMembers fuel r
        | _ => pure [(String.mk k, v)]
      | _ => .error endOfInput
    | _ => pure []

/-- `foldName` on one character: ASCII lower case to upper case, and `ſ`, the
Kelvin sign and `ı`, which fold to `S`, `K` and `I`. Every other character folds
to itself or to a non-ASCII character; it is kept, which matches a key against an
ASCII tag exactly as the fold does. -/
def foldChar (c : Char) : Char :=
  if 'a' ≤ c ∧ c ≤ 'z' then Char.ofNat (c.toNat - 32)
  else if c = 'ſ' then 'S' else if c = '\u212A' then 'K' else if c = 'ı' then 'I' else c

def foldName (s : String) : List Char := s.toList.map foldChar

/-- What a member's value does to the field it selects: set it, leave it (a `null`),
save an `UnmarshalTypeError` (the value's kind, the Go type) and go on, or stop
decoding. After a saved error the field's value no longer matters: the call
returns the error. -/
inductive Store (α : Type)
  | set (a : α)
  | keep
  | mismatch (value goType : String)
  | fail (e : String)

def Store.into {α S : Type} (set : α → S → S) (s : S) : Store α → Store S
  | .set a => .set (set a s)
  | .keep => .keep
  | .mismatch v t => .mismatch v t
  | .fail e => .fail e

theorem Store.into_eq_set {α S : Type} {set : α → S → S} {s s' : S} {st : Store α}
    (h : st.into set s = .set s') : ∃ a, st = .set a ∧ s' = set a s := by
  cases st <;> cases h
  exact ⟨_, rfl, rfl⟩

/-- A struct field: the key of its tag, and what a member's value text does to the
struct. -/
structure GoField (S : Type) where
  tag : String
  decode : List Char → S → Store S

variable {S N T : Type}

def decodeString (raw : List Char) : Store String :=
  match parse raw with
  | .ok (.string v) => .set v
  | .ok .null => .keep
  | .ok d => .mismatch d.kindName "string"
  | .error e => .fail e

def stringField (tag : String) (set : String → S → S) : GoField S :=
  ⟨tag, fun raw s ↦ (decodeString raw).into set s⟩

def rawField (tag : String) (set : List Char → S → S) : GoField S :=
  ⟨tag, fun raw s ↦ .set (set raw s)⟩

/-- A `map[string]interface{}` field: `null` makes it nil; an object is decoded
into the map already there, or a new one. A number `ParseFloat` rejects is saved
as the error. -/
def decodeMap (nf : NumberFormat N) (raw : List Char) (cur : Option (Fields N)) :
    Store (Option (Fields N)) :=
  match parse raw with
  | .ok .null => .set none
  | .ok (.object fs) =>
    match toAnyFields nf (cur.getD []) fs with
    | .ok m => .set (some m)
    | .error lit => .mismatch ("number " ++ String.mk lit) "float64"
  | .ok d => .mismatch d.kindName "map[string]interface {}"
  | .error e => .fail e

def mapField (nf : NumberFormat N) (tag : String) (get : S → Option (Fields N))
    (set : Option (Fields N) → S → S) : GoField S :=
  ⟨tag, fun raw s ↦ (decodeMap nf raw (get s)).into set s⟩

/-- `time.Time` in JSON. `MarshalJSON` writes RFC 3339 with nanoseconds between
quotes; `UnmarshalJSON` parses the bytes between the quotes strictly. The laws:
what is written reads back, and is made of characters JSON writes as they are. -/
structure TimeFormat (T : Type) where
  zero : T
  format : T → List Char
  parse : List Char → Except String T
  parse_format : ∀ t, parse (format t) = .ok t
  format_plain : ∀ t, ∀ c ∈ format t,
    c.isDigit ∨ c = '-' ∨ c = ':' ∨ c = '.' ∨ c = 'T' ∨ c = 'Z' ∨ c = '+'

def marshalTime (tf : TimeFormat T) (t : T) : List Char := '"' :: tf.format t ++ ['"']

def notJsonString : String := "Time.UnmarshalJSON: input is not a JSON string"

def decodeTime (tf : TimeFormat T) (raw : List Char) : Store T :=
  if raw = ['n', 'u', 'l', 'l'] then .keep
  else if raw.length < 2 ∨ raw.head? ≠ some '"' ∨ raw.getLast? ≠ some '"' then .fail notJsonString
  else match tf.parse (raw.drop 1).dropLast with
    | .ok t => .set t
    | .error e => .fail e

def timeField (tf : TimeFormat T) (tag : String) (set : T → S → S) : GoField S :=
  ⟨tag, fun raw s ↦ (decodeTime tf raw).into set s⟩

/-- The field a key selects: the exact tag first, else the first field whose
folded tag is the folded key. -/
def GoField.lookup (fields : List (GoField S)) (key : String) : Option (GoField S) :=
  match fields.find? (·.tag = key) with
  | some f => some f
  | none => fields.find? (fun f ↦ foldName f.tag = foldName key)

def fieldTypeError (structName tag value goType : String) : String :=
  "json: cannot unmarshal " ++ value ++ " into Go struct field " ++ structName ++ "." ++ tag ++
    " of type " ++ goType

def decodeMembers (structName : String) (fields : List (GoField S)) :
    List (String × List Char) → S → Option String → Except String (S × Option String)
  | [], s, saved => .ok (s, saved)
  | (k, raw) :: ms, s, saved =>
    match GoField.lookup fields k with
    | none => decodeMembers structName fields ms s saved
    | some f =>
      match f.decode raw s with
      | .set s' => decodeMembers structName fields ms s' saved
      | .keep => decodeMembers structName fields ms s saved
      | .mismatch v t =>
        decodeMembers structName fields ms s (saved <|> some (fieldTypeError structName f.tag v t))
      | .fail e => .error e

/-- `json.Unmarshal(cs, &s)` for a struct of Go type `goType` named `structName`:
`null` leaves `s`, any other kind than an object is a type error. -/
def unmarshalStruct (goType structName : String) (fields : List (GoField S)) (s : S)
    (cs : List Char) : Except String S :=
  match parse cs with
  | .error e => .error e
  | .ok .null => .ok s
  | .ok (.object _) =>
    match skipWs cs with
    | '{' :: r => do
      let ms ← rawMembers (cs.length + 1) r
      let (s, saved) ← decodeMembers structName fields ms s none
      match saved with
      | some e => .error e
      | none => .ok s
    | _ => .ok s
  | .ok d => .error ("json: cannot unmarshal " ++ d.kindName ++ " into Go value of type " ++ goType)

theorem GoField.lookup_mem {fields : List (GoField S)} {key : String} {f : GoField S}
    (h : GoField.lookup fields key = some f) : f ∈ fields := by
  unfold GoField.lookup at h
  split at h
  · cases h
    exact List.mem_of_find?_eq_some ‹_›
  · exact List.mem_of_find?_eq_some h

section Invariant

variable (P : S → Prop) (structName : String) (fields : List (GoField S))
  (hf : ∀ f ∈ fields, ∀ raw s s', P s → f.decode raw s = .set s' → P s')
include hf

theorem decodeMembers_inv (ms : List (String × List Char)) (s : S) (saved : Option String)
    {out : S × Option String} (hs : P s) (h : decodeMembers structName fields ms s saved = .ok out) : P out.1 := by
  induction ms generalizing s saved with
  | nil => cases h; exact hs
  | cons m ms ih =>
    obtain ⟨k, raw⟩ := m
    simp only [decodeMembers] at h
    split at h
    · exact ih s saved hs h
    · rename_i f hl
      split at h
      · exact ih _ saved (hf f (GoField.lookup_mem hl) raw s _ hs ‹_›) h
      · exact ih s saved hs h
      · exact ih s _ hs h
      · cases h

theorem unmarshalStruct_inv (goType : String) {s s' : S} {cs : List Char} (hs : P s)
    (h : unmarshalStruct goType structName fields s cs = .ok s') : P s' := by
  unfold unmarshalStruct at h
  split at h
  · cases h
  · cases h; exact hs
  · split at h
    · simp only [bind, Except.bind] at h
      split at h
      · cases h
      rename_i ms _
      split at h
      · cases h
      rename_i out hd
      split at h
      · cases h
      · cases h
        exact decodeMembers_inv P structName fields hf ms s none hs hd
    · cases h; exact hs
  · cases h

end Invariant

end Appstore.Json
