import Mathlib.Data.String.Basic

namespace Appstore.Json

/-- A JSON document, and also what `encoding/json` decodes into `interface{}`. As a
parse tree (`N` the literal's characters) an object keeps its members in document
order, duplicates included; in `interface{}` objects are `map[string]interface{}`
and numbers `float64` (`N`). -/
inductive Value (N : Type) where
  | null
  | bool (b : Bool)
  | number (n : N)
  | string (s : String)
  | array (xs : List (Value N))
  | object (fields : List (String × Value N))
  deriving Repr, Inhabited

abbrev Fields (N : Type) := List (String × Value N)

variable {N : Type}

def Value.kindName : Value N → String
  | .null => "null"
  | .bool _ => "bool"
  | .number _ => "number"
  | .string _ => "string"
  | .array _ => "array"
  | .object _ => "object"

namespace Fields

/-- `m[k] = v` on a Go map, kept as a list sorted by key. -/
def insert (k : String) (v : Value N) : Fields N → Fields N
  | [] => [(k, v)]
  | (k', v') :: fs =>
    if k = k' then (k, v) :: fs
    else if k < k' then (k, v) :: (k', v') :: fs
    else (k', v') :: insert k v fs

def find? (k : String) : Fields N → Option (Value N)
  | [] => none
  | (k', v) :: fs => if k = k' then some v else find? k fs

def Below (k : String) (fs : Fields N) : Prop := ∀ p ∈ fs, p.1 < k

@[simp] theorem find?_nil (k : String) : find? k ([] : Fields N) = none := rfl

theorem find?_cons (k k' : String) (v : Value N) (fs : Fields N) :
    find? k ((k', v) :: fs) = if k = k' then some v else find? k fs := rfl

theorem find?_insert (k k' : String) (v : Value N) (fs : Fields N) :
    find? k (insert k' v fs) = if k = k' then some v else find? k fs := by
  induction fs with
  | nil => rfl
  | cons p fs ih =>
    obtain ⟨k'', v''⟩ := p
    simp only [insert]
    by_cases h1 : k' = k''
    · subst h1; by_cases h : k = k' <;> simp [find?_cons, h]
    · by_cases h2 : k' < k''
      · simp only [h1, h2, if_false, if_true, find?_cons]
      · simp only [h1, h2, if_false, find?_cons, ih]
        by_cases h : k = k' <;> by_cases h' : k = k'' <;> simp_all

theorem insert_of_below {k : String} (v : Value N) {fs : Fields N} (h : Below k fs) :
    insert k v fs = fs ++ [(k, v)] := by
  induction fs with
  | nil => rfl
  | cons p fs ih =>
    obtain ⟨k', v'⟩ := p
    have hk : k' < k := h _ (List.mem_cons_self _ _)
    have hne : k ≠ k' := fun e ↦ (lt_irrefl k) (e ▸ hk)
    have hnlt : ¬ k < k' := fun e ↦ (lt_irrefl k) (lt_trans e hk)
    simp only [insert, hne, hnlt, if_false, List.cons_append,
      ih (fun q hq ↦ h q (List.mem_cons_of_mem _ hq))]

theorem find?_eq_none {k : String} {fs : Fields N} (h : ∀ p ∈ fs, p.1 ≠ k) : find? k fs = none := by
  induction fs with
  | nil => rfl
  | cons p fs ih =>
    rw [find?_cons, if_neg (h p (List.mem_cons_self _ _)).symm, ih fun q hq ↦ h q (List.mem_cons_of_mem _ hq)]

theorem find?_of_below {k : String} {fs : Fields N} (h : Below k fs) : find? k fs = none :=
  find?_eq_none fun p hp e ↦ lt_irrefl k (e ▸ h p hp)

theorem mem_of_find? {k : String} {v : Value N} {fs : Fields N} (h : find? k fs = some v) : (k, v) ∈ fs := by
  induction fs with
  | nil => cases h
  | cons p fs ih =>
    rw [find?_cons] at h
    split_ifs at h with hk
    · cases h; exact hk ▸ List.mem_cons_self _ _
    · exact List.mem_cons_of_mem _ (ih h)

theorem mem_insert {k : String} {v : Value N} {fs : Fields N} {p : String × Value N}
    (h : p ∈ insert k v fs) : p = (k, v) ∨ p ∈ fs := by
  induction fs with
  | nil => simpa [insert] using h
  | cons q fs ih =>
    simp only [insert] at h
    split_ifs at h <;> simp only [List.mem_cons] at h ⊢ <;> tauto

end Fields

def Value.atPath : List String → Value N → Option (Value N)
  | [], v => some v
  | k :: ks, .object fs => (Fields.find? k fs).bind (Value.atPath ks)
  | _ :: _, _ => none

/-- A Go map is a sorted list of distinct keys: what decoding into `interface{}`
produces, and what `json.Marshal` writes back in the same order. -/
def Sorted (fs : Fields N) : Prop := fs.Pairwise (fun a b ↦ a.1 < b.1)

theorem Sorted.insert {fs : Fields N} (h : Sorted fs) (k : String) (v : Value N) :
    Sorted (fs.insert k v) := by
  induction fs with
  | nil => exact List.pairwise_singleton _ _
  | cons q fs ih =>
    obtain ⟨hq, hfs⟩ := List.pairwise_cons.1 h
    simp only [Fields.insert]
    split_ifs with h₁ h₂
    · exact List.pairwise_cons.2 ⟨fun p hp ↦ h₁ ▸ hq p hp, hfs⟩
    · exact List.pairwise_cons.2 ⟨fun p hp ↦ (List.mem_cons.1 hp).elim (· ▸ h₂)
        fun hp ↦ lt_trans h₂ (hq p hp), h⟩
    · have hlt : q.1 < k := lt_of_le_of_ne (not_lt.1 h₂) (Ne.symm h₁)
      exact List.pairwise_cons.2 ⟨fun p hp ↦ (Fields.mem_insert hp).elim (· ▸ hlt) (hq p), ih hfs⟩

theorem Sorted.tail_find? {k : String} {v : Value N} {fs : Fields N} (h : Sorted ((k, v) :: fs)) :
    Fields.find? k fs = none :=
  Fields.find?_eq_none fun p hp ↦ (ne_of_lt ((List.pairwise_cons.1 h).1 p hp)).symm

theorem Fields.find?_head (k : String) (v : Value N) (fs : Fields N) : find? k ((k, v) :: fs) = some v :=
  if_pos rfl

theorem Sorted.find?_of_lt {k k' : String} {v : Value N} {fs : Fields N} (h : Sorted ((k', v) :: fs))
    (hk : k < k') : Fields.find? k ((k', v) :: fs) = none :=
  Fields.find?_eq_none fun p hp ↦ by
    rcases List.mem_cons.1 hp with rfl | hp
    exacts [ne_of_gt hk, ne_of_gt (lt_trans hk ((List.pairwise_cons.1 h).1 p hp))]

theorem Sorted.ext {fs gs : Fields N} (hf : Sorted fs) (hg : Sorted gs)
    (h : ∀ k, Fields.find? k fs = Fields.find? k gs) : fs = gs := by
  induction fs generalizing gs with
  | nil =>
    cases gs with
    | nil => rfl
    | cons q gs => cases (h q.1).trans (Fields.find?_head q.1 q.2 gs)
  | cons p fs ih =>
    cases gs with
    | nil => cases (h p.1).symm.trans (Fields.find?_head p.1 p.2 fs)
    | cons q gs =>
      obtain ⟨k, v⟩ := p
      obtain ⟨k', v'⟩ := q
      have hkk : k = k' := by
        by_contra hne
        rcases lt_or_gt_of_ne hne with hlt | hlt
        · cases (Fields.find?_head k v fs).symm.trans ((h k).trans (hg.find?_of_lt hlt))
        · cases (hf.find?_of_lt hlt).symm.trans ((h k').trans (Fields.find?_head k' v' gs))
      subst hkk
      have hvv : v = v' := Option.some.inj ((Fields.find?_head k v fs).symm.trans
        ((h k).trans (Fields.find?_head k v' gs)))
      subst hvv
      refine congrArg _ (ih (List.pairwise_cons.1 hf).2 (List.pairwise_cons.1 hg).2 fun j ↦ ?_)
      by_cases hj : j = k
      · rw [hj, hf.tail_find?, hg.tail_find?]
      · simpa only [Fields.find?_cons, if_neg hj] using h j

mutual
/-- A value as Go holds it in `interface{}`: every object a sorted map. -/
def Value.IsAny : Value N → Prop
  | .array xs => ListIsAny xs
  | .object fs => Sorted fs ∧ FieldsIsAny fs
  | _ => True

def ListIsAny : List (Value N) → Prop
  | [] => True
  | x :: xs => x.IsAny ∧ ListIsAny xs

def FieldsIsAny : Fields N → Prop
  | [] => True
  | (_, v) :: fs => v.IsAny ∧ FieldsIsAny fs
end

theorem fieldsIsAny_iff {fs : Fields N} : FieldsIsAny fs ↔ ∀ p ∈ fs, p.2.IsAny := by
  induction fs with
  | nil => simp [FieldsIsAny]
  | cons p fs ih => obtain ⟨k, v⟩ := p; simp [FieldsIsAny, ih]

theorem Value.IsAny.insert {fs : Fields N} (h : (Value.object fs).IsAny) (k : String) {v : Value N}
    (hv : v.IsAny) : (Value.object (fs.insert k v)).IsAny :=
  ⟨h.1.insert k v, fieldsIsAny_iff.2 fun _ hp ↦ (Fields.mem_insert hp).elim (· ▸ hv)
    (fieldsIsAny_iff.1 h.2 _)⟩

end Appstore.Json
