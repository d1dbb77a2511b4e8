import Appstore.Json.Unmarshal

namespace Appstore.Json

theorem hexVal_hexDigit_all : ∀ d, d < 16 → hexVal (hexDigit d) = some d := by decide

theorem hex4_unicodeEscape {n : Nat} (hn : n < 0x10000) :
    hex4 (hexDigit (n / 4096 % 16)) (hexDigit (n / 256 % 16)) (hexDigit (n / 16 % 16)) (hexDigit (n % 16)) =
      some n := by
  simp only [hex4, hexVal_hexDigit_all _ (Nat.mod_lt _ (by omega : 16 > 0)), Option.bind_eq_bind,
    Option.some_bind]
  congr 1
  omega

theorem lexString_escapeChar (c : Char) (r : List Char) :
    lexString (escapeChar c ++ r) = (lexString r).map fun p ↦ (.char c :: p.1, p.2) := by
  by_cases hs : c = '"' ∨ c = '\\' ∨ c = '\n' ∨ c = '\r' ∨ c = '\t' ∨ c = '\x08' ∨ c = '\x0c'
  · rcases hs with rfl | rfl | rfl | rfl | rfl | rfl | rfl <;> rfl
  obtain ⟨h₁, h₂, h₃, h₄, h₅, h₆, h₇⟩ := by simpa only [not_or] using hs
  rw [escapeChar, if_neg h₁, if_neg h₂, if_neg h₃, if_neg h₄, if_neg h₅, if_neg h₆, if_neg h₇]
  by_cases hu : needsUnicodeEscape c
  · have hlt : c.toNat < 0x2030 := by
      simp only [needsUnicodeEscape, Bool.or_eq_true, decide_eq_true_eq] at hu
      rcases hu with ((((h | h) | h) | h) | h) | h <;> first | omega | (subst h; decide)
    have hc : unitPiece c.toNat = .char c := by
      rw [unitPiece, if_neg (by simp [isSurrogate]; omega), Char.ofNat_toNat]
    rw [if_pos hu, unicodeEscape]
    simp only [List.cons_append, List.nil_append]
    rw [lexString.eq_3, hex4_unicodeEscape (by omega : c.toNat < 0x10000)]
    exact congrArg (fun x ↦ Except.map (fun p ↦ (x :: p.1, p.2)) (lexString r)) hc
  · have hc : ¬ c.toNat < 0x20 := by
      simp only [needsUnicodeEscape, Bool.or_eq_true, decide_eq_true_eq, not_or] at hu
      exact hu.1.1.1.1.1
    rw [if_neg hu, List.singleton_append,
      lexString.eq_6 c r h₁ (fun _ _ _ _ _ h _ ↦ h₂ h) (fun _ _ h _ ↦ h₂ h) (fun h _ ↦ h₂ h), if_neg hc]

theorem joinPieces_chars (cs : List Char) : joinPieces none (cs.map Piece.char) = cs := by
  induction cs with
  | nil => rfl
  | cons c cs ih => simp only [List.map_cons, joinPieces, ih]

theorem lexString_escapeChars (cs r : List Char) :
    lexString (escapeChars cs ++ '"' :: r) = .ok (cs.map Piece.char, r) := by
  induction cs with
  | nil => rfl
  | cons c cs ih => rw [escapeChars, List.append_assoc, lexString_escapeChar, ih]; rfl

theorem parseString_escapeChars (cs r : List Char) : parseString (escapeChars cs ++ '"' :: r) = .ok (cs, r) := by
  rw [parseString, lexString_escapeChars]
  simp only [Except.map, joinPieces_chars]

theorem quote_append (k : String) (r : List Char) : quote k ++ r = '"' :: (escapeChars k.toList ++ '"' :: r) := by
  simp [quote]

theorem parseValue_quote (fuel : Nat) (s : String) (r : List Char) :
    parseValue (fuel + 1) (quote s ++ r) = .ok (.string s, r) := by
  rw [quote_append]
  show (parseString _).map _ = _
  rw [parseString_escapeChars]
  rfl

theorem parse_quote (s : String) : parse (quote s) = .ok (.string s) := by
  have h := parseValue_quote (quote s).length s []
  rw [List.append_nil] at h
  simp only [parse, h]
  rfl

theorem mem_takeWhile_or_dropWhile {p : Char → Bool} {l : List Char} {c : Char} (h : c ∈ l) :
    c ∈ l.takeWhile p ∨ c ∈ l.dropWhile p := by
  rw [← List.takeWhile_append_dropWhile p l] at h
  exact List.mem_append.1 h

theorem allDigits_numberChar {ds : List Char} (h : allDigits ds = true) : ∀ c ∈ ds, numberChar c = true := by
  intro c hc
  simp only [allDigits, Bool.and_eq_true, List.all_eq_true] at h
  simp [numberChar, h.2 c hc]

theorem expPart_numberChar {cs : List Char} (h : expPart cs = true) : ∀ c ∈ cs, numberChar c = true := by
  unfold expPart at h
  split at h <;> first
    | exact fun _ hc ↦ absurd hc (List.not_mem_nil _)
    | simp at h
    | (intro c hc
       simp only [List.mem_cons] at hc
       rcases hc with rfl | rfl | hc <;> first | rfl | exact allDigits_numberChar h c ‹_›)
    | (intro c hc
       simp only [List.mem_cons] at hc
       rcases hc with rfl | hc <;> first | rfl | exact allDigits_numberChar h c hc)

theorem fracExpPart_numberChar {cs : List Char} (h : fracExpPart cs = true) :
    ∀ c ∈ cs, numberChar c = true := by
  unfold fracExpPart at h
  split at h
  · rename_i r
    simp only [Bool.and_eq_true] at h
    intro c hc
    rcases List.mem_cons.1 hc with rfl | hc
    · rfl
    · rcases mem_takeWhile_or_dropWhile hc with hc | hc
      · exact allDigits_numberChar h.1 c hc
      · exact expPart_numberChar h.2 c hc
  · exact expPart_numberChar h

theorem numberBody_spec {body : List Char} (hint : intPart (body.takeWhile Char.isDigit) = true)
    (hfrac : fracExpPart (body.dropWhile Char.isDigit) = true) :
    ∃ d ds, body = d :: ds ∧ d.isDigit = true ∧ ∀ c ∈ body, numberChar c = true := by
  have hchars : ∀ c ∈ body, numberChar c = true := fun c hc ↦
    (@mem_takeWhile_or_dropWhile Char.isDigit _ _ hc).elim
      (fun hc ↦ by simp [numberChar, List.mem_takeWhile_imp hc]) (fracExpPart_numberChar hfrac c)
  rcases body with _ | ⟨d, ds⟩
  · cases hint
  · by_cases hd : d.isDigit = true
    · exact ⟨d, ds, rfl, hd, hchars⟩
    · rw [List.takeWhile_cons_of_neg hd] at hint
      cases hint

theorem numberLiteral_body {cs : List Char} (h : numberLiteral cs = true) :
    ∃ d ds, (cs = d :: ds ∨ cs = '-' :: d :: ds) ∧ d.isDigit = true ∧ ∀ c ∈ d :: ds, numberChar c = true := by
  unfold numberLiteral at h
  simp only [Bool.and_eq_true] at h
  split at h
  · obtain ⟨d, ds, rfl, hd, hchars⟩ := numberBody_spec h.1 h.2
    exact ⟨d, ds, .inr rfl, hd, hchars⟩
  · obtain ⟨d, ds, rfl, hd, hchars⟩ := numberBody_spec h.1 h.2
    exact ⟨d, ds, .inl rfl, hd, hchars⟩

variable {N : Type} (nf : NumberFormat N)

theorem parseNumber_format (n : N) {r : List Char} (hr : r.takeWhile numberChar = []) :
    parseNumber (nf.format n ++ r) = .ok (.number (nf.format n), r) := by
  obtain ⟨d, ds, hcs, -, hchars⟩ := numberLiteral_body (nf.format_literal n)
  have hall : ∀ c ∈ nf.format n, numberChar c = true := by
    rcases hcs with h | h <;> rw [h]
    · exact hchars
    · exact List.forall_mem_cons.2 ⟨rfl, hchars⟩
  have hdrop : r.dropWhile numberChar = r := by
    simpa [hr] using List.takeWhile_append_dropWhile numberChar r
  simp only [parseNumber, List.takeWhile_append_of_pos hall, List.dropWhile_append_of_pos hall, hr,
    List.append_nil, nf.format_literal n, if_true, hdrop]

mutual
def Value.toDoc : Value N → Doc
  | .null => .null
  | .bool b => .bool b
  | .number n => .number (nf.format n)
  | .string s => .string s
  | .array xs => .array (toDocList xs)
  | .object fs => .object (toDocFields fs)

def toDocList : List (Value N) → List Doc
  | [] => []
  | x :: xs => x.toDoc :: toDocList xs

def toDocFields : Fields N → Fields (List Char)
  | [] => []
  | (k, v) :: fs => (k, v.toDoc) :: toDocFields fs
end

mutual
def Value.size : Value N → Nat
  | .array xs => listSize xs + 1
  | .object fs => fieldsSize fs + 1
  | _ => 0

def listSize : List (Value N) → Nat
  | [] => 0
  | x :: xs => x.size + listSize xs + 1

def fieldsSize : Fields N → Nat
  | [] => 0
  | (_, v) :: fs => v.size + fieldsSize fs + 1
end

theorem digit_ne {d : Char} (hd : d.isDigit = true) :
    isSpace d = false ∧ d ≠ 'n' ∧ d ≠ 't' ∧ d ≠ 'f' ∧ d ≠ '"' ∧ d ≠ '[' ∧ d ≠ '{' ∧ d ≠ ']' := by
  refine ⟨?_, ?_, ?_, ?_, ?_, ?_, ?_, ?_⟩
  · simp only [isSpace, Bool.or_eq_false_iff, decide_eq_false_iff_not]
    refine ⟨⟨⟨?_, ?_⟩, ?_⟩, ?_⟩ <;> (rintro rfl; exact absurd hd (by decide))
  all_goals (rintro rfl; exact absurd hd (by decide))

theorem skipWs_cons {c : Char} (hc : isSpace c = false) (cs : List Char) : skipWs (c :: cs) = c :: cs :=
  List.dropWhile_cons_of_neg (by simp [hc])

theorem mem_digits_of_isDigit {c : Char} (hc : c.isDigit = true) :
    c ∈ ['0', '1', '2', '3', '4', '5', '6', '7', '8', '9'] := by
  have hall : ∀ n < 58, 48 ≤ n → Char.ofNat n ∈ ['0', '1', '2', '3', '4', '5', '6', '7', '8', '9'] := by decide
  simp only [Char.isDigit, Bool.and_eq_true, decide_eq_true_eq] at hc
  simpa only [Char.ofNat_toNat] using hall c.toNat (Nat.lt_succ_of_le hc.2) hc.1

theorem parseValue_numberHead (fuel : Nat) {c : Char} (cs : List Char) (hc : c = '-' ∨ c.isDigit = true) :
    parseValue (fuel + 1) (c :: cs) = parseNumber (c :: cs) := by
  rcases hc with rfl | hd
  · rfl
  have hmem := mem_digits_of_isDigit hd
  simp only [List.mem_cons, List.not_mem_nil, or_false] at hmem
  rcases hmem with rfl | rfl | rfl | rfl | rfl | rfl | rfl | rfl | rfl | rfl <;> rfl

theorem marshal_head (v : Value N) : ∃ c rest, marshal nf v = c :: rest ∧ isSpace c = false ∧ c ≠ ']' := by
  cases v with
  | number n =>
    obtain ⟨d, ds, hcs | hcs, hd, -⟩ := numberLiteral_body (nf.format_literal n)
    · exact ⟨d, ds, hcs, (digit_ne hd).1, (digit_ne hd).2.2.2.2.2.2.2⟩
    · exact ⟨'-', d :: ds, hcs, rfl, by decide⟩
  | bool b => cases b <;> exact ⟨_, _, rfl, rfl, by decide⟩
  | array xs => cases xs <;> exact ⟨_, _, rfl, rfl, by decide⟩
  | object fs => cases fs <;> exact ⟨_, _, rfl, rfl, by decide⟩
  | _ => exact ⟨_, _, rfl, rfl, by decide⟩

theorem skipWs_marshal (v : Value N) (r : List Char) : skipWs (marshal nf v ++ r) = marshal nf v ++ r := by
  obtain ⟨c, rest, h, hsp, -⟩ := marshal_head nf v
  rw [h, List.cons_append, skipWs_cons hsp]

theorem marshalElems_takeWhile (xs : List (Value N)) (r : List Char) :
    (marshalElems nf xs ++ r).takeWhile numberChar = [] := by
  cases xs <;> rfl

theorem marshalMembers_takeWhile (fs : Fields N) (r : List Char) :
    (marshalMembers nf fs ++ r).takeWhile numberChar = [] := by
  cases fs <;> rfl

/-- What `parseValue`, `parseElems` and `parseMembers` do with fuel `fuel` on what
`marshal` writes. -/
def ParsesAt (fuel : Nat) : Prop :=
  (∀ (v : Value N) r, v.size < fuel → r.takeWhile numberChar = [] →
    parseValue fuel (marshal nf v ++ r) = .ok (v.toDoc nf, r)) ∧
  (∀ (x : Value N) xs r, listSize (x :: xs) < fuel →
    parseElems fuel (marshal nf x ++ marshalElems nf xs ++ r) = .ok (toDocList nf (x :: xs), r)) ∧
  (∀ k (v : Value N) fs r, fieldsSize ((k, v) :: fs) < fuel →
    parseMembers fuel (quote k ++ ':' :: marshal nf v ++ marshalMembers nf fs ++ r) =
      .ok (toDocFields nf ((k, v) :: fs), r))

theorem parseValue_bracket (fuel : Nat) (cs : List Char) :
    parseValue (fuel + 1) ('[' :: cs) =
      match skipWs cs with
      | ']' :: r' => .ok (.array [], r')
      | _ => (parseElems fuel cs).map fun p ↦ (.array p.1, p.2) := rfl

theorem parseValue_brace (fuel : Nat) (cs : List Char) :
    parseValue (fuel + 1) ('{' :: cs) =
      match skipWs cs with
      | '}' :: r' => .ok (.object [], r')
      | _ => (parseMembers fuel cs).map fun p ↦ (.object p.1, p.2) := rfl

variable {nf} {fuel : Nat}

theorem ParsesAt.value (ih : ParsesAt nf fuel) (v : Value N) (r : List Char) (hv : v.size < fuel + 1)
    (hr : r.takeWhile numberChar = []) : parseValue (fuel + 1) (marshal nf v ++ r) = .ok (v.toDoc nf, r) := by
  cases v with
  | null => rfl
  | bool b => cases b <;> rfl
  | number n =>
    show parseValue (fuel + 1) (nf.format n ++ r) = .ok (.number (nf.format n), r)
    obtain ⟨d, ds, hcs | hcs, hd, -⟩ := numberLiteral_body (nf.format_literal n) <;>
      rw [hcs, List.cons_append, parseValue_numberHead fuel _ (by simp [hd]), ← List.cons_append, ← hcs,
        parseNumber_format nf n hr]
  | string s => exact parseValue_quote fuel s r
  | array xs =>
    cases xs with
    | nil => rfl
    | cons x xs =>
      obtain ⟨c, rest, hc, -, hne⟩ := marshal_head nf x
      have hx := ih.2.1 x xs r (by simpa [Value.size] using hv)
      simp only [marshal, List.cons_append, List.append_assoc] at hx ⊢
      rw [parseValue_bracket, skipWs_marshal, hc, List.cons_append]
      split
      · simp_all
      · rw [← List.cons_append, ← hc, hx]
        rfl
  | object fs =>
    cases fs with
    | nil => rfl
    | cons m fs =>
      obtain ⟨k, w⟩ := m
      have hm := ih.2.2 k w fs r (by simpa [Value.size] using hv)
      simp only [marshal, List.cons_append, List.append_assoc] at hm ⊢
      rw [parseValue_brace, quote_append, skipWs_cons (rfl : isSpace '"' = false), ← quote_append]
      show (parseMembers fuel _).map _ = _
      rw [hm]
      rfl

theorem ParsesAt.elems (ih : ParsesAt nf fuel) (x : Value N) (xs : List (Value N)) (r : List Char)
    (h : listSize (x :: xs) < fuel + 1) :
    parseElems (fuel + 1) (marshal nf x ++ marshalElems nf xs ++ r) = .ok (toDocList nf (x :: xs), r) := by
  simp only [listSize] at h
  have hx := ih.1 x (marshalElems nf xs ++ r) (by omega) (marshalElems_takeWhile nf xs r)
  rw [parseElems, List.append_assoc, hx]
  cases xs with
  | nil => rfl
  | cons y ys =>
    have hy := ih.2.1 y ys r (by simp only [listSize] at h ⊢; omega)
    simp only [marshalElems, List.cons_append, List.append_assoc] at hy ⊢
    show (parseElems fuel _).map _ = _
    rw [hy]
    rfl

theorem ParsesAt.members (ih : ParsesAt nf fuel) (k : String) (v : Value N) (fs : Fields N) (r : List Char)
    (h : fieldsSize ((k, v) :: fs) < fuel + 1) :
    parseMembers (fuel + 1) (quote k ++ ':' :: marshal nf v ++ marshalMembers nf fs ++ r) =
      .ok (toDocFields nf ((k, v) :: fs), r) := by
  simp only [fieldsSize] at h
  have hv := ih.1 v (marshalMembers nf fs ++ r) (by omega) (marshalMembers_takeWhile nf fs r)
  simp only [List.cons_append, List.append_assoc]
  rw [quote_append, parseMembers, skipWs_cons (rfl : isSpace '"' = false)]
  simp only [parseString_escapeChars, bind, Except.bind, skipWs_cons (rfl : isSpace ':' = false), hv]
  cases fs with
  | nil => rfl
  | cons m fs =>
    obtain ⟨k', w⟩ := m
    have hm := ih.2.2 k' w fs r (by simp only [fieldsSize] at h ⊢; omega)
    simp only [marshalMembers, List.cons_append, List.append_assoc] at hm ⊢
    show (parseMembers fuel _).map _ = _
    rw [hm]
    rfl

variable (nf)

theorem parsesAt (fuel : Nat) : ParsesAt nf fuel := by
  induction fuel with
  | zero =>
    exact ⟨fun _ _ h ↦ absurd h (Nat.not_lt_zero _), fun _ _ _ h ↦ absurd h (Nat.not_lt_zero _),
      fun _ _ _ _ h ↦ absurd h (Nat.not_lt_zero _)⟩
  | succ n ih => exact ⟨ih.value, ih.elems, ih.members⟩

mutual
theorem size_le_length : ∀ v : Value N, v.size ≤ (marshal nf v).length
  | .null | .bool _ | .number _ | .string _ | .array [] | .object [] => by simp [Value.size, listSize, fieldsSize, marshal]
  | .array (x :: xs) => by
    have := size_le_length x
    have := listSize_lt_length xs
    simp only [Value.size, listSize, marshal, List.length_cons, List.length_append]
    omega
  | .object ((k, v) :: fs) => by
    have := size_le_length v
    have := fieldsSize_lt_length fs
    simp only [Value.size, fieldsSize, marshal, List.length_cons, List.length_append]
    omega

theorem listSize_lt_length : ∀ xs : List (Value N), listSize xs < (marshalElems nf xs).length
  | [] => by simp [listSize, marshalElems]
  | x :: xs => by
    have := size_le_length x
    have := listSize_lt_length xs
    simp only [listSize, marshalElems, List.length_cons, List.length_append]
    omega

theorem fieldsSize_lt_length : ∀ fs : Fields N, fieldsSize fs < (marshalMembers nf fs).length
  | [] => by simp [fieldsSize, marshalMembers]
  | (k, v) :: fs => by
    have := size_le_length v
    have := fieldsSize_lt_length fs
    simp only [fieldsSize, marshalMembers, List.length_cons, List.length_append]
    omega
end

theorem parse_marshal (v : Value N) : parse (marshal nf v) = .ok (v.toDoc nf) := by
  have h := (parsesAt nf _).1 v [] (Nat.lt_succ_of_le (size_le_length nf v)) rfl
  rw [List.append_nil] at h
  simp only [parse, h]
  rfl

theorem valueText_marshal (v : Value N) (r : List Char) (hv : v.size < fuel) (hr : r.takeWhile numberChar = []) :
    valueText fuel (marshal nf v ++ r) = .ok (marshal nf v, r) := by
  obtain ⟨f, rfl⟩ : ∃ f, fuel = f + 1 := ⟨fuel - 1, by omega⟩
  simp only [valueText, skipWs_marshal, (parsesAt nf _).1 v r hv hr, Except.map, List.length_append,
    Nat.add_sub_cancel, List.take_left]

theorem rawMembers_member (k : String) (v : Value N) (fs : Fields N) (r : List Char) (hv : v.size < fuel) :
    rawMembers (fuel + 1) (quote k ++ ':' :: (marshal nf v ++ (marshalMembers nf fs ++ r))) =
      match fs with
      | [] => .ok [(k, marshal nf v)]
      | (k', v') :: fs =>
        ((k, marshal nf v) :: ·) <$> rawMembers fuel (quote k' ++ ':' :: (marshal nf v' ++ (marshalMembers nf fs ++ r))) := by
  rw [quote_append, rawMembers, skipWs_cons (rfl : isSpace '"' = false)]
  simp only [parseString_escapeChars, bind, Except.bind, skipWs_cons (rfl : isSpace ':' = false),
    valueText_marshal nf v _ hv (marshalMembers_takeWhile nf fs r)]
  cases fs with
  | nil => rfl
  | cons m fs => simp only [marshalMembers, List.cons_append, List.append_assoc, quote_append]; rfl

theorem rawMembers_marshal (k : String) (v : Value N) (fs : Fields N) (r : List Char)
    (h : fieldsSize ((k, v) :: fs) < fuel + 1) :
    rawMembers (fuel + 1) (quote k ++ ':' :: (marshal nf v ++ (marshalMembers nf fs ++ r))) =
      .ok (((k, v) :: fs).map fun m ↦ (m.1, marshal nf m.2)) := by
  induction fs generalizing k v fuel with
  | nil => exact rawMembers_member nf k v [] r (by simpa [fieldsSize] using h)
  | cons m fs ih =>
    obtain ⟨k', v'⟩ := m
    obtain ⟨f, rfl⟩ : ∃ f, fuel = f + 1 := ⟨fuel - 1, by simp only [fieldsSize] at h; omega⟩
    simp only [fieldsSize] at h
    rw [rawMembers_member nf k v _ r (by omega)]
    dsimp only
    rw [@ih f k' v' (by simp only [fieldsSize]; omega)]
    rfl

theorem unmarshalStruct_marshal {S : Type} (goType structName : String) (fields : List (GoField S)) (s s' : S)
    (fs : Fields N) (h : decodeMembers structName fields (fs.map fun m ↦ (m.1, marshal nf m.2)) s none = .ok (s', none)) :
    unmarshalStruct goType structName fields s (marshal nf (.object fs)) = .ok s' := by
  have hsize := size_le_length nf (.object fs)
  rw [unmarshalStruct, parse_marshal]
  cases fs with
  | nil => cases h; rfl
  | cons m fs =>
    obtain ⟨k, v⟩ := m
    have hm : marshal nf (.object ((k, v) :: fs)) =
        '{' :: (quote k ++ ':' :: (marshal nf v ++ (marshalMembers nf fs ++ []))) := by
      simp only [marshal, List.append_nil, List.append_assoc, List.cons_append]
    simp only [Value.size] at hsize
    simp only [Value.toDoc, toDocFields]
    rw [hm, skipWs_cons (rfl : isSpace '{' = false)]
    rw [hm] at hsize
    split
    · rename_i r hr
      cases hr
      rw [rawMembers_marshal nf k v fs [] (by omega)]
      simp only [bind, Except.bind, h]
    · rename_i hne
      exact absurd rfl (hne _)

theorem exists_map_marshal {ms : List (String × List Char)} (h : ∀ m ∈ ms, ∃ v : Value N, m.2 = marshal nf v) :
    ∃ fs : Fields N, ms = fs.map fun m ↦ (m.1, marshal nf m.2) := by
  induction ms with
  | nil => exact ⟨[], rfl⟩
  | cons m ms ih =>
    obtain ⟨v, hv⟩ := h m (List.mem_cons_self _ _)
    obtain ⟨fs, rfl⟩ := ih fun m' hm' ↦ h m' (List.mem_cons_of_mem _ hm')
    exact ⟨(m.1, v) :: fs, by simp only [List.map_cons, ← hv]⟩

theorem unmarshalStruct_marshalStruct {S : Type} (goType structName : String) (fields : List (GoField S))
    (s s' : S) (ms : List (String × List Char)) (hms : ∀ m ∈ ms, ∃ v : Value N, m.2 = marshal nf v)
    (h : decodeMembers structName fields ms s none = .ok (s', none)) :
    unmarshalStruct goType structName fields s (marshalStruct ms) = .ok s' := by
  obtain ⟨fs, rfl⟩ := exists_map_marshal nf hms
  rw [marshalStruct_map]
  exact unmarshalStruct_marshal nf goType structName fields s s' fs h

mutual
theorem toAny_toDoc : ∀ v : Value N, v.IsAny → (v.toDoc nf).toAny nf = .ok v
  | .null, _ | .bool _, _ | .string _, _ => rfl
  | .number n, _ => by simp only [Value.toDoc, Value.toAny, nf.parse_format]
  | .array xs, h => by simp only [Value.toDoc, Value.toAny, toAnyList_toDocList xs h]; rfl
  | .object fs, h => by
    simp only [Value.toDoc, Value.toAny, toAnyFields_toDocFields [] fs h.1 h.2]
    rfl

theorem toAnyList_toDocList : ∀ xs : List (Value N), ListIsAny xs → toAnyList nf (toDocList nf xs) = .ok xs
  | [], _ => rfl
  | x :: xs, h => by simp only [toDocList, toAnyList, toAny_toDoc x h.1, toAnyList_toDocList xs h.2]; rfl

theorem toAnyFields_toDocFields : ∀ acc fs : Fields N, Sorted (acc ++ fs) → FieldsIsAny fs →
    toAnyFields nf acc (toDocFields nf fs) = .ok (acc ++ fs)
  | acc, [], _, _ => by simp only [toDocFields, toAnyFields, List.append_nil]
  | acc, (k, v) :: fs, hs, h => by
    have hb : Fields.Below k acc := fun p hp ↦ (List.pairwise_append.1 hs).2.2 p hp (k, v) (List.mem_cons_self _ _)
    have hs' : Sorted ((acc ++ [(k, v)]) ++ fs) := by rw [List.append_assoc, List.singleton_append]; exact hs
    simp only [toDocFields, toAnyFields, toAny_toDoc v h.1, bind, Except.bind, Fields.insert_of_below v hb,
      toAnyFields_toDocFields _ fs hs' h.2, List.append_assoc, List.singleton_append]
end

theorem unmarshalAny_marshal (v : Value N) (h : v.IsAny) : unmarshalAny nf (marshal nf v) = .ok v := by
  simp only [unmarshalAny, parse_marshal, bind, Except.bind, toAny_toDoc nf v h]
  rfl

theorem marshal_inj {a b : Value N} (ha : a.IsAny) (hb : b.IsAny) : marshal nf a = marshal nf b ↔ a = b :=
  ⟨fun h ↦ Except.ok.inj ((unmarshalAny_marshal nf a ha).symm.trans (h ▸ unmarshalAny_marshal nf b hb)),
    congrArg _⟩

theorem decodeMap_marshal (fs : Fields N) (h : (Value.object fs).IsAny) :
    decodeMap nf (marshal nf (.object fs)) none = .set (some fs) := by
  simp only [decodeMap, parse_marshal, Value.toDoc, Option.getD_none, toAnyFields_toDocFields nf [] fs h.1 h.2,
    List.nil_append]

theorem decodeString_quote (s : String) : decodeString (quote s) = .set s := by
  rw [decodeString, parse_quote]

theorem escapeChars_plain {cs : List Char}
    (h : ∀ c ∈ cs, c.isDigit ∨ c = '-' ∨ c = ':' ∨ c = '.' ∨ c = 'T' ∨ c = 'Z' ∨ c = '+') :
    escapeChars cs = cs := by
  induction cs with
  | nil => rfl
  | cons c cs ih =>
    obtain ⟨hc, hcs⟩ := List.forall_mem_cons.1 h
    have hesc : escapeChar c = [c] := by
      rcases hc with hd | rfl | rfl | rfl | rfl | rfl | rfl
      · have hmem := mem_digits_of_isDigit hd
        simp only [List.mem_cons, List.not_mem_nil, or_false] at hmem
        rcases hmem with rfl | rfl | rfl | rfl | rfl | rfl | rfl | rfl | rfl | rfl <;> rfl
      all_goals rfl
    rw [escapeChars, hesc, ih hcs, List.singleton_append]

theorem marshalTime_eq {T : Type} (tf : TimeFormat T) (t : T) :
    marshalTime tf t = marshal nf (.string ⟨tf.format t⟩) := by
  rw [marshal, quote, show (String.mk (tf.format t)).toList = tf.format t from rfl,
    escapeChars_plain (tf.format_plain t), marshalTime, List.cons_append]

theorem decodeTime_marshalTime {T : Type} (tf : TimeFormat T) (t : T) : decodeTime tf (marshalTime tf t) = .set t := by
  have hlast : (marshalTime tf t).getLast? = some '"' := by
    rw [marshalTime, List.getLast?_concat]
  rw [decodeTime, hlast]
  simp [marshalTime, tf.parse_format]

end Appstore.Json
