import Appstore.Json.RoundTrip
import Appstore.Kube.ApiServer

namespace Appstore.Controller

open Appstore.Api Appstore.Json Appstore.Kube

variable {N : Type}

mutual
/-- `mergeMaps(dst, src)`: every key of `src` is set in `dst`, and where both
values are maps they are merged recursively. -/
def mergeMaps (dst : Fields N) : Fields N → Fields N
  | [] => dst
  | (k, sv) :: rest => mergeMaps (mergeEntry dst k sv) rest

def mergeEntry (dst : Fields N) (k : String) : Value N → Fields N
  | .object sm =>
    match dst.find? k with
    | some (.object dm) => dst.insert k (.object (mergeMaps dm sm))
    | _ => dst.insert k (.object sm)
  | sv => dst.insert k sv
end

theorem mergeEntry_of_below {dst : Fields N} {k : String} (v : Value N) (h : Fields.Below k dst) :
    mergeEntry dst k v = dst ++ [(k, v)] := by
  cases v <;> simp only [mergeEntry, Fields.find?_of_below h, Fields.insert_of_below _ h]

theorem mergeMaps_of_sorted (dst fs : Fields N) (h : Sorted (dst ++ fs)) : mergeMaps dst fs = dst ++ fs := by
  induction fs generalizing dst with
  | nil => rw [mergeMaps, List.append_nil]
  | cons m fs ih =>
    obtain ⟨k, v⟩ := m
    have hb : Fields.Below k dst := fun p hp ↦ (List.pairwise_append.1 h).2.2 p hp (k, v) (List.mem_cons_self _ _)
    rw [mergeMaps, mergeEntry_of_below v hb, ih _ (by rw [List.append_assoc, List.singleton_append]; exact h),
      List.append_assoc, List.singleton_append]

/-- What the deep merge of `dst` and `src` holds at a key, from what each holds
there: `src`'s value, the merge of the two where both are maps, and `dst`'s value
where `src` has none. -/
def mergedAt : Option (Value N) → Option (Value N) → Option (Value N)
  | some (.object dm), some (.object sm) => some (.object (mergeMaps dm sm))
  | dv, none => dv
  | _, some sv => some sv

@[simp] theorem mergedAt_none (dv : Option (Value N)) : mergedAt dv none = dv := by
  rcases dv with _ | (_ | _ | _ | _ | _ | _) <;> rfl

theorem mergedAt_of_not_object (dv : Option (Value N)) {sv : Value N} (h : ∀ fs, sv ≠ .object fs) :
    mergedAt dv (some sv) = some sv := by
  cases sv with
  | object fs => exact absurd rfl (h fs)
  | _ => rcases dv with _ | (_ | _ | _ | _ | _ | _) <;> rfl

theorem mergedAt_object (dv : Option (Value N)) (sm : Fields N) :
    mergedAt dv (some (.object sm)) = some (.object sm) ∨
      ∃ dm, dv = some (.object dm) ∧ mergedAt dv (some (.object sm)) = some (.object (mergeMaps dm sm)) := by
  rcases dv with _ | (_ | _ | _ | _ | _ | dm)
  all_goals first | exact .inl rfl | exact .inr ⟨dm, rfl, rfl⟩

theorem mergeEntry_eq (dst : Fields N) (k : String) (v : Value N) :
    ∃ w, mergeEntry dst k v = dst.insert k w ∧ mergedAt (dst.find? k) (some v) = some w := by
  cases v with
  | object sm =>
    simp only [mergeEntry]
    split
    · rename_i dm hd
      exact ⟨_, rfl, by rw [hd]; rfl⟩
    · rename_i hd
      rcases mergedAt_object (dst.find? k) sm with h | ⟨dm, hdm, -⟩
      · exact ⟨_, rfl, h⟩
      · exact absurd hdm (hd dm)
  | _ => exact ⟨_, by simp only [mergeEntry], mergedAt_of_not_object _ nofun⟩

theorem mergeMaps_find? (dst src : Fields N) (h : Sorted src) (k : String) :
    (mergeMaps dst src).find? k = mergedAt (dst.find? k) (src.find? k) := by
  induction src generalizing dst with
  | nil => rw [mergeMaps, Fields.find?_nil, mergedAt_none]
  | cons p src ih =>
    obtain ⟨k', v⟩ := p
    obtain ⟨w, hw, hm⟩ := mergeEntry_eq dst k' v
    rw [mergeMaps, ih _ (List.pairwise_cons.1 h).2, hw, Fields.find?_insert, Fields.find?_cons]
    by_cases hk : k = k'
    · subst hk
      rw [if_pos rfl, if_pos rfl, h.tail_find?, mergedAt_none, hm]
    · rw [if_neg hk, if_neg hk]

theorem mergeMaps_find?_isSome (dst src : Fields N) (h : Sorted src) (k : String) :
    ((mergeMaps dst src).find? k).isSome = ((dst.find? k).isSome || (src.find? k).isSome) := by
  rw [mergeMaps_find? dst src h]
  rcases src.find? k with _ | sv
  · simp
  · obtain ⟨w, -, hw⟩ := mergeEntry_eq dst k sv
    simp only [hw, Option.isSome_some, Bool.or_true]

theorem mergeMaps_isAny : ∀ dst src : Fields N, (Value.object dst).IsAny → (Value.object src).IsAny →
    (Value.object (mergeMaps dst src)).IsAny := by
  refine @mergeMaps.induct N (fun dst src ↦ (Value.object dst).IsAny → (Value.object src).IsAny →
      (Value.object (mergeMaps dst src)).IsAny)
    (fun dst k v ↦ (Value.object dst).IsAny → v.IsAny → (Value.object (mergeEntry dst k v)).IsAny)
    ?_ ?_ ?_ ?_ ?_
  · intro dst k sm dm h ih hd hs
    simp only [mergeEntry, h]
    exact hd.insert k (ih (fieldsIsAny_iff.1 hd.2 _ (Fields.mem_of_find? h)) hs)
  · intro dst k sm h hd hs
    obtain ⟨w, hw, hm⟩ := mergeEntry_eq dst k (.object sm)
    rcases mergedAt_object (dst.find? k) sm with h' | ⟨dm, hdm, -⟩
    · rw [hw, Option.some.inj (hm.symm.trans h')]
      exact hd.insert k hs
    · exact absurd hdm (h dm)
  · intro dst k sv h hd hs
    obtain ⟨w, hw, hm⟩ := mergeEntry_eq dst k sv
    rw [hw, Option.some.inj (hm.symm.trans (mergedAt_of_not_object _ fun fs e ↦ h fs e))]
    exact hd.insert k hs
  · intro dst hd _
    exact hd
  · intro dst k sv rest ih₁ ih₂ hd hs
    obtain ⟨hsorted, hall⟩ := hs
    exact ih₂ (ih₁ hd hall.1) ⟨(List.pairwise_cons.1 hsorted).2, hall.2⟩

theorem atPath_mergeMaps (dst src : Fields N) (hs : (Value.object src).IsAny) (p : List String) {x : Value N}
    (hx : (Value.object src).atPath p = some x) (hno : ∀ fs, x ≠ .object fs) :
    (Value.object (mergeMaps dst src)).atPath p = some x := by
  induction p generalizing dst src with
  | nil => cases hx; exact absurd rfl (hno src)
  | cons k ks ih =>
    simp only [Value.atPath] at hx ⊢
    obtain ⟨sv, hsv, hx⟩ := Option.bind_eq_some.1 hx
    rw [mergeMaps_find? dst src hs.1, hsv]
    cases ks with
    | nil =>
      cases hx
      rw [mergedAt_of_not_object _ hno]
      rfl
    | cons k' ks =>
      cases sv with
      | object sm =>
        have hsm : (Value.object sm).IsAny := fieldsIsAny_iff.1 hs.2 _ (Fields.mem_of_find? hsv)
        rcases mergedAt_object (dst.find? k) sm with h | ⟨dm, -, h⟩ <;> rw [h]
        · exact hx
        · exact ih dm sm hsm hx
      | _ => cases hx

variable (nf : NumberFormat N)

/-- `json.Unmarshal` into a `map[string]interface{}`; `null` leaves the map nil,
which merges like an empty one. -/
def unmarshalMap (cs : List Char) : Except String (Fields N) :=
  match unmarshalAny nf cs with
  | .error e => .error e
  | .ok .null => .ok []
  | .ok (.object fs) => .ok fs
  | .ok v => .error ("json: cannot unmarshal " ++ v.kindName ++
      " into Go value of type map[string]interface {}")

def lookupKey (k : String) : List (String × String) → Option String
  | [] => none
  | (k', v) :: kvs => if k = k' then some v else lookupKey k kvs

def getValuesFromReference (c : Cluster) (fault : Bool) (ns : String) (ref : ValuesReference) :
    Except String (Fields N) :=
  let key := if ref.valuesKey = "" then "values.yaml" else ref.valuesKey
  let fetch (resource kind : String)
      (store : ObjectKey → Option (List (String × String))) : Except String String :=
    if fault then .error ApiError.unavailable.toString
    else match store ⟨ns, ref.name⟩ with
      | none => .error (resource ++ " \"" ++ ref.name ++ "\" not found")
      | some d => match lookupKey key d with
        | some v => .ok v
        | none => .error ("key " ++ key ++ " not found in " ++ kind ++ " " ++ ref.name)
  let data :=
    if ref.kind = "ConfigMap" then fetch "configmaps" "ConfigMap" c.configMaps
    else if ref.kind = "Secret" then fetch "secrets" "Secret" c.secrets
    else .error ("unsupported kind: " ++ ref.kind)
  match data with
  | .error e => .error e
  | .ok d => match unmarshalMap nf d.toList with
    | .error e => .error ("failed to unmarshal values: " ++ e)
    | .ok v => .ok v

def getValuesFrom (c : Cluster) (faults : Nat → Bool) (ns : String) :
    Nat → List ValuesReference → Fields N → Except String (Fields N)
  | _, [], acc => .ok acc
  | i, ref :: refs, acc =>
    match getValuesFromReference nf c (faults i) ns ref with
    | .error e =>
      if ref.optional then getValuesFrom c faults ns (i + 1) refs acc
      else .error ("failed to get values from " ++ ref.kind ++ "/" ++ ref.name ++ ": " ++ e)
    | .ok rv => getValuesFrom c faults ns (i + 1) refs (mergeMaps acc rv)

/-- `getValues`: the references in order, then `spec.values` on top. -/
def getValues (c : Cluster) (faults : Nat → Bool) (ad : AppDeployment) : Except String (Fields N) :=
  match getValuesFrom nf c faults ad.metadata.ns 0 ad.spec.valuesFrom [] with
  | .error e => .error e
  | .ok values =>
    match ad.spec.values with
    | none => .ok values
    | some raw =>
      match unmarshalMap nf raw with
      | .error e => .error ("failed to unmarshal spec values: " ++ e)
      | .ok sv => .ok (mergeMaps values sv)

theorem getValues_congr {c c' : Cluster} (hc : c'.configMaps = c.configMaps) (hs : c'.secrets = c.secrets)
    (faults : Nat → Bool) (ad : AppDeployment) :
    getValues nf c' faults ad = getValues nf c faults ad := by
  have href (fault : Bool) (ns : String) (ref : ValuesReference) :
      getValuesFromReference nf c' fault ns ref = getValuesFromReference nf c fault ns ref := by
    simp only [getValuesFromReference, hc, hs]
  have hfrom (i : Nat) (refs : List ValuesReference) (acc : Fields N) :
      getValuesFrom nf c' faults ad.metadata.ns i refs acc = getValuesFrom nf c faults ad.metadata.ns i refs acc := by
    induction refs generalizing i acc with
    | nil => rfl
    | cons ref refs ih => simp only [getValuesFrom, href, ih]
  simp only [getValues, hfrom]

theorem unmarshalMap_isAny {cs : List Char} {fs : Fields N} (h : unmarshalMap nf cs = .ok fs) :
    (Value.object fs).IsAny := by
  unfold unmarshalMap at h
  split at h <;> cases h
  · exact ⟨List.Pairwise.nil, trivial⟩
  · exact unmarshalAny_isAny nf ‹_›

theorem getValuesFromReference_isAny {c : Cluster} {fault : Bool} {ns : String} {ref : ValuesReference}
    {fs : Fields N} (h : getValuesFromReference nf c fault ns ref = .ok fs) : (Value.object fs).IsAny := by
  unfold getValuesFromReference at h
  dsimp only at h
  repeat' split at h
  all_goals cases h
  exact unmarshalMap_isAny nf ‹_›

def loadedValues (c : Cluster) (faults : Nat → Bool) (ns : String) (i : Nat) (refs : List ValuesReference) :
    List (Fields N) :=
  (refs.enumFrom i).filterMap fun p ↦ (getValuesFromReference nf c (faults p.1) ns p.2).toOption

def requiredFails (c : Cluster) (faults : Nat → Bool) (ns : String) (i : Nat) (refs : List ValuesReference) :
    Bool :=
  (refs.enumFrom i).any fun p ↦ !p.2.optional && (getValuesFromReference nf c (faults p.1) ns p.2).toOption.isNone

section Fold

variable (c : Cluster) (faults : Nat → Bool) (ns : String)

theorem getValuesFrom_of_required_ok (refs : List ValuesReference) (i : Nat) (acc : Fields N)
    (h : requiredFails nf c faults ns i refs = false) :
    getValuesFrom nf c faults ns i refs acc = .ok ((loadedValues nf c faults ns i refs).foldl mergeMaps acc) := by
  induction refs generalizing i acc with
  | nil => rfl
  | cons ref refs ih =>
    simp only [requiredFails, List.enumFrom_cons, List.any_cons, Bool.or_eq_false_iff] at h
    simp only [getValuesFrom, loadedValues, List.enumFrom_cons, List.filterMap_cons]
    rcases e : getValuesFromReference nf c (faults i) ns ref with err | rv <;>
      simp only [e, Except.toOption, Option.isNone_none, Option.isNone_some, Bool.and_true, Bool.and_false,
        Bool.not_eq_false'] at h ⊢
    · rw [if_pos h.1]
      exact ih _ _ h.2
    · exact ih _ _ h.2

theorem getValuesFrom_of_required_fails (refs : List ValuesReference) (i : Nat) (acc : Fields N)
    (h : requiredFails nf c faults ns i refs = true) : ∃ e, getValuesFrom nf c faults ns i refs acc = .error e := by
  induction refs generalizing i acc with
  | nil => cases h
  | cons ref refs ih =>
    simp only [requiredFails, List.enumFrom_cons, List.any_cons, Bool.or_eq_true] at h
    simp only [getValuesFrom]
    rcases e : getValuesFromReference nf c (faults i) ns ref with err | rv <;>
      simp only [e, Except.toOption, Option.isNone_none, Option.isNone_some, Bool.and_true, Bool.and_false,
        Bool.not_eq_true', Bool.false_eq_true, false_or] at h ⊢
    · by_cases ho : ref.optional
      · rw [if_pos ho]
        exact ih _ _ (h.resolve_left fun h' ↦ by simp [ho] at h')
      · exact ⟨_, if_neg ho⟩
    · exact ih _ _ h

theorem getValuesFrom_congr {faults' : Nat → Bool} (refs : List ValuesReference) (i i' : Nat) (acc : Fields N)
    (h : ∀ m, faults (i + m) = faults' (i' + m)) :
    getValuesFrom nf c faults ns i refs acc = getValuesFrom nf c faults' ns i' refs acc := by
  induction refs generalizing i i' acc with
  | nil => rfl
  | cons ref refs ih =>
    have h₀ : faults i = faults' i' := h 0
    have h₁ : ∀ m, faults (i + 1 + m) = faults' (i' + 1 + m) := fun m ↦ by
      simpa only [Nat.add_assoc, Nat.add_comm 1 m] using h (m + 1)
    simp only [getValuesFrom, h₀, ih (i + 1) (i' + 1) _ h₁]

theorem getValuesFrom_eraseIdx (j : Nat) {ref : ValuesReference} (hopt : ref.optional = true)
    (hfail : ∃ e, getValuesFromReference nf c (faults j) ns ref = .error e) (refs : List ValuesReference)
    (i : Nat) (acc : Fields N) (hij : i ≤ j) (hj : refs[j - i]? = some ref) :
    getValuesFrom nf c faults ns i refs acc =
      getValuesFrom nf c (fun m ↦ if m < j then faults m else faults (m + 1)) ns i (refs.eraseIdx (j - i)) acc := by
  obtain ⟨err, he⟩ := hfail
  induction refs generalizing i acc with
  | nil => cases hj
  | cons r refs ih =>
    rcases Nat.eq_or_lt_of_le hij with rfl | hlt
    · rw [Nat.sub_self, List.getElem?_cons_zero] at hj
      rw [Nat.sub_self]
      obtain rfl := Option.some.inj hj
      simp only [List.eraseIdx_cons_zero, getValuesFrom, he, hopt, if_true]
      exact getValuesFrom_congr nf c faults ns refs _ _ acc fun m ↦ by
        rw [if_neg (by omega), Nat.add_right_comm]
    · obtain ⟨n, hn⟩ : ∃ n, j - i = n + 1 := ⟨j - i - 1, by omega⟩
      rw [hn, List.getElem?_cons_succ] at hj
      have hj' : refs[j - (i + 1)]? = some ref := by rwa [show j - (i + 1) = n by omega]
      rw [hn, List.eraseIdx_cons_succ]
      simp only [getValuesFrom, if_pos hlt, ← show j - (i + 1) = n by omega, ih (i + 1) _ hlt hj']

end Fold

theorem getValues_ok_iff (c : Cluster) (faults : Nat → Bool) (ad : AppDeployment) (v : Fields N) :
    getValues nf c faults ad = .ok v ↔
      requiredFails nf c faults ad.metadata.ns 0 ad.spec.valuesFrom = false ∧
      ((ad.spec.values = none ∧
          v = (loadedValues nf c faults ad.metadata.ns 0 ad.spec.valuesFrom).foldl mergeMaps []) ∨
        ∃ raw sv, ad.spec.values = some raw ∧ unmarshalMap nf raw = .ok sv ∧
          v = mergeMaps ((loadedValues nf c faults ad.metadata.ns 0 ad.spec.valuesFrom).foldl mergeMaps []) sv) := by
  cases hreq : requiredFails nf c faults ad.metadata.ns 0 ad.spec.valuesFrom
  · rw [getValues, getValuesFrom_of_required_ok nf c faults _ _ 0 [] hreq]
    rcases hv : ad.spec.values with _ | raw
    · simp [hv, eq_comm]
    · rcases hu : unmarshalMap nf raw with err | sv <;> simp [hv, hu, eq_comm]
  · obtain ⟨e, he⟩ := getValuesFrom_of_required_fails nf c faults _ _ 0 [] hreq
    simp [getValues, he]

theorem getValues_error_iff (c : Cluster) (faults : Nat → Bool) (ad : AppDeployment) :
    (∃ e, getValues nf c faults ad = .error e) ↔
      requiredFails nf c faults ad.metadata.ns 0 ad.spec.valuesFrom = true ∨
      ∃ raw e, ad.spec.values = some raw ∧ unmarshalMap nf raw = .error e := by
  cases hreq : requiredFails nf c faults ad.metadata.ns 0 ad.spec.valuesFrom
  · rw [getValues, getValuesFrom_of_required_ok nf c faults _ _ 0 [] hreq]
    rcases hv : ad.spec.values with _ | raw
    · simp [hv]
    · rcases hu : unmarshalMap nf raw with err | sv <;> simp [hv, hu]
  · obtain ⟨e, he⟩ := getValuesFrom_of_required_fails nf c faults _ _ 0 [] hreq
    simp [getValues, he]

theorem loadedValues_isAny {c : Cluster} {faults : Nat → Bool} {ns : String} {i : Nat}
    {refs : List ValuesReference} {fs : Fields N} (h : fs ∈ loadedValues nf c faults ns i refs) :
    (Value.object fs).IsAny := by
  obtain ⟨p, -, hp⟩ := List.mem_filterMap.1 h
  rcases e : getValuesFromReference nf c (faults p.1) ns p.2 with _ | fs' <;> rw [e] at hp <;> cases hp
  exact getValuesFromReference_isAny nf e

theorem foldl_mergeMaps_isAny {l : List (Fields N)} (hl : ∀ fs ∈ l, (Value.object fs).IsAny) {acc : Fields N}
    (ha : (Value.object acc).IsAny) : (Value.object (l.foldl mergeMaps acc)).IsAny := by
  induction l generalizing acc with
  | nil => exact ha
  | cons fs l ih =>
    exact ih (fun g hg ↦ hl g (List.mem_cons_of_mem _ hg)) (mergeMaps_isAny _ _ ha (hl fs (List.mem_cons_self _ _)))

theorem getValues_isAny {c : Cluster} {faults : Nat → Bool} {ad : AppDeployment} {v : Fields N}
    (h : getValues nf c faults ad = .ok v) : (Value.object v).IsAny := by
  have hbase : (Value.object ((loadedValues nf c faults ad.metadata.ns 0 ad.spec.valuesFrom).foldl
      mergeMaps [])).IsAny :=
    foldl_mergeMaps_isAny (fun _ hfs ↦ loadedValues_isAny nf hfs) ⟨List.Pairwise.nil, trivial⟩
  obtain ⟨-, ⟨-, rfl⟩ | ⟨raw, sv, -, hsv, rfl⟩⟩ := (getValues_ok_iff nf c faults ad v).1 h
  · exact hbase
  · exact mergeMaps_isAny _ _ hbase (unmarshalMap_isAny nf hsv)

theorem getValues_atPath {c : Cluster} {faults : Nat → Bool} {ad : AppDeployment} {v : Fields N}
    {raw : List Char} {sv : Fields N} (h : getValues nf c faults ad = .ok v) (hraw : ad.spec.values = some raw)
    (hsv : unmarshalMap nf raw = .ok sv) (p : List String) {x : Value N}
    (hx : (Value.object sv).atPath p = some x) (hno : ∀ fs, x ≠ .object fs) :
    (Value.object v).atPath p = some x := by
  obtain ⟨-, ⟨hnone, -⟩ | ⟨raw', sv', hraw', hsv', rfl⟩⟩ := (getValues_ok_iff nf c faults ad v).1 h
  · rw [hraw] at hnone; cases hnone
  · rw [hraw] at hraw'
    obtain rfl := Option.some.inj hraw'
    rw [hsv, Except.ok.injEq] at hsv'
    subst hsv'
    exact atPath_mergeMaps _ sv (unmarshalMap_isAny nf hsv) p hx hno

theorem getValues_drop_optional (c : Cluster) (faults : Nat → Bool) (ad ad' : AppDeployment) (j : Nat)
    {ref : ValuesReference} (hj : ad.spec.valuesFrom[j]? = some ref) (hopt : ref.optional = true)
    (hfail : ∃ e, getValuesFromReference nf c (faults j) ad.metadata.ns ref = .error e)
    (hns : ad'.metadata.ns = ad.metadata.ns) (hv : ad'.spec.values = ad.spec.values)
    (hrefs : ad'.spec.valuesFrom = ad.spec.valuesFrom.eraseIdx j) :
    getValues nf c (fun i ↦ if i < j then faults i else faults (i + 1)) ad' = getValues nf c faults ad := by
  have h := getValuesFrom_eraseIdx nf c faults ad.metadata.ns j hopt hfail ad.spec.valuesFrom 0 []
    (Nat.zero_le j) (by rwa [Nat.sub_zero])
  rw [Nat.sub_zero] at h
  simp only [getValues, hns, hv, hrefs, h]

/-- `getValues` fails exactly when a reference that is not optional fails to load
or the inline values fail to decode; otherwise it is the fold of `mergeMaps` over
the references that load, in order, from an empty map, then the inline values
merged on top. `mergeMaps` is the deep merge: it holds every key of either map,
with the source's value, except that two maps are merged recursively. So every
non-object value of the inline values keeps its path, and a failing optional
reference has the effect of its removal. -/
theorem getValues_deep_merge :
    (∀ (c : Cluster) (faults : Nat → Bool) (ad : AppDeployment),
      (∃ e, getValues nf c faults ad = .error e) ↔
        requiredFails nf c faults ad.metadata.ns 0 ad.spec.valuesFrom = true ∨
        ∃ raw e, ad.spec.values = some raw ∧ unmarshalMap nf raw = .error e) ∧
    (∀ (c : Cluster) (faults : Nat → Bool) (ad : AppDeployment) (v : Fields N),
      getValues nf c faults ad = .ok v ↔
        requiredFails nf c faults ad.metadata.ns 0 ad.spec.valuesFrom = false ∧
        ((ad.spec.values = none ∧
            v = (loadedValues nf c faults ad.metadata.ns 0 ad.spec.valuesFrom).foldl mergeMaps []) ∨
          ∃ raw sv, ad.spec.values = some raw ∧ unmarshalMap nf raw = .ok sv ∧
            v = mergeMaps ((loadedValues nf c faults ad.metadata.ns 0 ad.spec.valuesFrom).foldl mergeMaps []) sv)) ∧
    (∀ dst src : Fields N, Sorted src → ∀ k, (mergeMaps dst src).find? k = mergedAt (dst.find? k) (src.find? k)) ∧
    (∀ dst src : Fields N, Sorted src → ∀ k,
      ((mergeMaps dst src).find? k).isSome = ((dst.find? k).isSome || (src.find? k).isSome)) ∧
    (∀ (c : Cluster) (faults : Nat → Bool) (ad : AppDeployment) (v : Fields N) (raw : List Char) (sv : Fields N)
      (p : List String) (x : Value N), getValues nf c faults ad = .ok v → ad.spec.values = some raw →
      unmarshalMap nf raw = .ok sv → (Value.object sv).atPath p = some x → (∀ fs, x ≠ .object fs) →
      (Value.object v).atPath p = some x) ∧
    (∀ (c : Cluster) (faults : Nat → Bool) (ad ad' : AppDeployment) (j : Nat) (ref : ValuesReference),
      ad.spec.valuesFrom[j]? = some ref → ref.optional = true →
      (∃ e, getValuesFromReference nf c (faults j) ad.metadata.ns ref = .error e) →
      ad'.metadata.ns = ad.metadata.ns → ad'.spec.values = ad.spec.values →
      ad'.spec.valuesFrom = ad.spec.valuesFrom.eraseIdx j →
      getValues nf c (fun i ↦ if i < j then faults i else faults (i + 1)) ad' = getValues nf c faults ad) :=
  ⟨getValues_error_iff nf, getValues_ok_iff nf, mergeMaps_find?, mergeMaps_find?_isSome,
    fun _ _ _ _ _ _ p _ h hraw hsv hx hno ↦ getValues_atPath nf h hraw hsv p hx hno,
    fun c faults ad ad' j _ hj hopt hfail hns hv hrefs ↦
      getValues_drop_optional nf c faults ad ad' j hj hopt hfail hns hv hrefs⟩

/-- `hashValues`: `digest` stands for the hex of the first eight bytes of the
SHA-256 of the marshalled map. -/
def hashValues (digest : List Char → String) (values : Fields N) : String :=
  digest (marshal nf (.object values))

theorem hashValues_eq_iff (digest : List Char → String) {a b : Fields N} (ha : (Value.object a).IsAny)
    (hb : (Value.object b).IsAny)
    (hcoll : digest (marshal nf (.object a)) = digest (marshal nf (.object b)) →
      marshal nf (.object a) = marshal nf (.object b)) :
    hashValues nf digest a = hashValues nf digest b ↔ a = b :=
  ⟨fun h ↦ Value.object.inj ((marshal_inj nf ha hb).1 (hcoll h)), fun h ↦ h ▸ rfl⟩

end Appstore.Controller
