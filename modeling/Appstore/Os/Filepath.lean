import Mathlib.Data.List.Basic

namespace Appstore.Os

abbrev Elem := List Char

def dotDot : Elem := ['.', '.']

def cleanStep (rooted : Bool) (st : List Elem) (e : Elem) : List Elem :=
  if e = [] ∨ e = ['.'] then st
  else if e = dotDot then
    match st with
    | top :: rest => if top = dotDot then e :: st else rest
    | [] => if rooted then [] else [e]
  else e :: st

def isRooted (path : List Char) : Bool := path.head? = some '/'

def cleanStack (path : List Char) : List Elem :=
  (path.splitOn '/').foldl (cleanStep (isRooted path)) []

def render (rooted : Bool) (st : List Elem) : List Char :=
  if rooted then '/' :: ['/'].intercalate st.reverse
  else if st = [] then ['.'] else ['/'].intercalate st.reverse

def clean (path : List Char) : List Char :=
  if path = [] then ['.'] else render (isRooted path) (cleanStack path)

/-- `filepath.Join`: the elements from the first non-empty one, joined with
slashes and cleaned; empty when every element is. -/
def join (elems : List String) : String :=
  match elems.dropWhile (· = "") with
  | [] => ""
  | es => ⟨clean (['/'].intercalate (es.map String.toList))⟩

def ValidElem (e : Elem) : Prop := e ≠ [] ∧ e ≠ ['.'] ∧ e ≠ dotDot ∧ '/' ∉ e

/-- What `Clean`'s stack can be: names over a run of `..`, which a rooted path
never keeps. -/
def CleanStack (rooted : Bool) (st : List Elem) : Prop :=
  ∃ names k, st = names ++ List.replicate k dotDot ∧ (∀ n ∈ names, ValidElem n) ∧ (rooted = true → k = 0)

theorem cleanStack_nil (rooted : Bool) : CleanStack rooted [] := ⟨[], 0, rfl, nofun, fun _ ↦ rfl⟩

theorem CleanStack.step {rooted : Bool} {st : List Elem} (h : CleanStack rooted st) {e : Elem}
    (he : '/' ∉ e) : CleanStack rooted (cleanStep rooted st e) := by
  obtain ⟨names, k, rfl, hn, hk⟩ := h
  by_cases hskip : e = [] ∨ e = ['.']
  · unfold cleanStep; rw [if_pos hskip]
    exact ⟨names, k, rfl, hn, hk⟩
  by_cases hdd : e = dotDot
  · subst hdd
    unfold cleanStep; rw [if_neg hskip, if_pos rfl]
    rcases names with _ | ⟨n, names⟩
    · rcases k with _ | k
      · cases rooted
        · exact ⟨[], 1, rfl, nofun, nofun⟩
        · exact cleanStack_nil true
      · have hr : rooted = false := by
          cases rooted
          · rfl
          · exact absurd (hk rfl) k.succ_ne_zero
        exact ⟨[], k + 2, rfl, nofun, by simp [hr]⟩
    · have hn' : n ≠ dotDot := (hn n (.head _)).2.2.1
      simp only [List.cons_append, hn', if_false]
      exact ⟨names, k, rfl, fun m hm ↦ hn m (.tail _ hm), hk⟩
  · unfold cleanStep; rw [if_neg hskip, if_neg hdd]
    push_neg at hskip
    exact ⟨e :: names, k, rfl, List.forall_mem_cons.2 ⟨⟨hskip.1, hskip.2, hdd, he⟩, hn⟩, hk⟩

theorem CleanStack.foldl {rooted : Bool} {st : List Elem} (h : CleanStack rooted st) {es : List Elem}
    (hes : ∀ e ∈ es, '/' ∉ e) : CleanStack rooted (es.foldl (cleanStep rooted) st) := by
  induction es generalizing st with
  | nil => exact h
  | cons e es ih => exact ih (h.step (hes e (.head _))) fun e' he' ↦ hes e' (.tail _ he')

theorem CleanStack.elem {rooted : Bool} {st : List Elem} (h : CleanStack rooted st) :
    ∀ e ∈ st, e ≠ [] ∧ '/' ∉ e := by
  obtain ⟨names, k, rfl, hn, -⟩ := h
  intro e he
  rcases List.mem_append.1 he with he | he
  · exact ⟨(hn e he).1, (hn e he).2.2.2⟩
  · rw [List.eq_of_mem_replicate he]
    decide

theorem slash_not_mem_splitOn (path : List Char) : ∀ e ∈ path.splitOn '/', '/' ∉ e := by
  induction path with
  | nil => simp
  | cons x path ih =>
    simp only [List.splitOn, List.splitOnP_cons] at ih ⊢
    split_ifs with hx
    · simpa using ih
    · obtain ⟨e₀, es, hes⟩ := List.exists_cons_of_ne_nil (List.splitOnP_ne_nil _ path)
      rw [hes] at ih ⊢
      simp only [List.modifyHead_cons, List.mem_cons, forall_eq_or_imp] at ih ⊢
      exact ⟨fun h ↦ h.elim (fun h ↦ hx (by rw [← h]; rfl)) ih.1, ih.2⟩

theorem splitOn_append_slash (a b : List Char) :
    (a ++ '/' :: b).splitOn '/' = a.splitOn '/' ++ b.splitOn '/' := by
  induction a with
  | nil => simp [List.splitOn, List.splitOnP_cons]
  | cons x a ih =>
    simp only [List.splitOn, List.cons_append, List.splitOnP_cons] at ih ⊢
    rw [ih]
    split_ifs
    · rfl
    · obtain ⟨e₀, es, hes⟩ := List.exists_cons_of_ne_nil (List.splitOnP_ne_nil _ a)
      rw [hes]
      rfl

theorem cleanStep_valid (rooted : Bool) (st : List Elem) {e : Elem} (he : ValidElem e) :
    cleanStep rooted st e = e :: st := by
  unfold cleanStep
  rw [if_neg (not_or.2 ⟨he.1, he.2.1⟩), if_neg he.2.2.1]

theorem foldl_cleanStep_names (rooted : Bool) (acc : List Elem) {names : List Elem}
    (hn : ∀ n ∈ names, ValidElem n) : names.reverse.foldl (cleanStep rooted) acc = names ++ acc := by
  induction names with
  | nil => rfl
  | cons n names ih =>
    rw [List.reverse_cons, List.foldl_append, ih fun m hm ↦ hn m (.tail _ hm)]
    exact cleanStep_valid rooted _ (hn n (.head _))

theorem foldl_cleanStep_dotDots (j k : Nat) :
    (List.replicate k dotDot).foldl (cleanStep false) (List.replicate j dotDot) =
      List.replicate (k + j) dotDot := by
  induction k generalizing j with
  | zero => simp
  | succ k ih =>
    have hstep : cleanStep false (List.replicate j dotDot) dotDot = List.replicate (j + 1) dotDot := by
      cases j <;> rfl
    rw [List.replicate_succ, List.foldl_cons, hstep, ih, Nat.add_right_comm, Nat.add_assoc]

theorem foldl_cleanStep_reverse {rooted : Bool} {st : List Elem} (h : CleanStack rooted st) :
    st.reverse.foldl (cleanStep rooted) [] = st := by
  obtain ⟨names, k, rfl, hn, hk⟩ := h
  have hdots : (List.replicate k dotDot).foldl (cleanStep rooted) [] = List.replicate k dotDot := by
    cases rooted
    · simpa using foldl_cleanStep_dotDots 0 k
    · rw [hk rfl]; rfl
  rw [List.reverse_append, List.reverse_replicate, List.foldl_append, hdots,
    foldl_cleanStep_names rooted _ hn]

theorem splitOn_slash_cons (q : List Char) : ('/' :: q).splitOn '/' = [] :: q.splitOn '/' := by
  simpa using splitOn_append_slash [] q

theorem foldl_cleanStep_render {rooted : Bool} {st : List Elem} (h : CleanStack rooted st) :
    ((render rooted st).splitOn '/').foldl (cleanStep rooted) [] = st := by
  by_cases hst : st = []
  · subst hst
    cases rooted <;> rfl
  have hsplit : (['/'].intercalate st.reverse).splitOn '/' = st.reverse :=
    List.splitOn_intercalate st.reverse '/' (fun e he ↦ (h.elem e (List.mem_reverse.1 he)).2)
      (List.reverse_ne_nil_iff.2 hst)
  cases rooted
  · simp only [render, Bool.false_eq_true, if_false, hst, hsplit]
    exact foldl_cleanStep_reverse h
  · simp only [render, if_true, splitOn_slash_cons, hsplit, List.foldl_cons]
    exact foldl_cleanStep_reverse h

theorem render_false_head? {st : List Elem} (h : CleanStack false st) :
    ∃ c, (render false st).head? = some c ∧ c ≠ '/' := by
  by_cases hst : st = []
  · subst hst
    exact ⟨'.', rfl, by decide⟩
  obtain ⟨e, es, hes⟩ := List.exists_cons_of_ne_nil (List.reverse_ne_nil_iff.2 hst)
  obtain ⟨he, hslash⟩ := h.elem e (List.mem_reverse.1 (hes ▸ List.mem_cons_self e es))
  obtain ⟨c, cs, rfl⟩ := List.exists_cons_of_ne_nil he
  exact ⟨c, by cases es <;> simp [render, hst, hes, List.intercalate],
    fun hc ↦ hslash (hc ▸ List.mem_cons_self c cs)⟩

theorem isRooted_render {rooted : Bool} {st : List Elem} (h : CleanStack rooted st) :
    isRooted (render rooted st) = rooted := by
  cases rooted
  · obtain ⟨c, hc, hne⟩ := render_false_head? h
    simp [isRooted, hc, hne]
  · rfl

theorem render_ne_nil {rooted : Bool} {st : List Elem} (h : CleanStack rooted st) : render rooted st ≠ [] := by
  cases rooted
  · obtain ⟨c, hc, -⟩ := render_false_head? h
    rintro hr
    simp [hr] at hc
  · simp [render]

theorem cleanStack_cleanStack (p : List Char) : CleanStack (isRooted p) (cleanStack p) :=
  (cleanStack_nil _).foldl (slash_not_mem_splitOn p)

theorem clean_of_ne_nil {p : List Char} (hp : p ≠ []) : clean p = render (isRooted p) (cleanStack p) :=
  if_neg hp

theorem isRooted_append {p : List Char} (hp : p ≠ []) (q : List Char) : isRooted (p ++ q) = isRooted p := by
  obtain ⟨c, cs, rfl⟩ := List.exists_cons_of_ne_nil hp
  rfl

theorem cleanStack_append_slash {p : List Char} (hp : p ≠ []) (q : List Char) :
    cleanStack (p ++ '/' :: q) = (q.splitOn '/').foldl (cleanStep (isRooted p)) (cleanStack p) := by
  rw [cleanStack, isRooted_append hp, splitOn_append_slash, List.foldl_append, cleanStack]

theorem clean_append_slash {p : List Char} (hp : p ≠ []) (q : List Char) :
    clean (clean p ++ '/' :: q) = clean (p ++ '/' :: q) := by
  have hs := cleanStack_cleanStack p
  have hc := clean_of_ne_nil hp
  have hne : clean p ≠ [] := hc ▸ render_ne_nil hs
  have hroot : isRooted (clean p) = isRooted p := hc ▸ isRooted_render hs
  have hstack : cleanStack (clean p) = cleanStack p := by
    rw [cleanStack, hroot, hc, foldl_cleanStep_render hs]
  have h₁ : clean p ++ '/' :: q ≠ [] := by simp
  have h₂ : p ++ '/' :: q ≠ [] := by simp
  rw [clean_of_ne_nil h₁, clean_of_ne_nil h₂, isRooted_append hne, isRooted_append hp, hroot,
    cleanStack_append_slash hne, cleanStack_append_slash hp, hroot, hstack]

theorem clean_ne_nil (p : List Char) : clean p ≠ [] := by
  unfold clean
  split_ifs
  · simp
  · exact render_ne_nil (cleanStack_cleanStack p)

theorem join_empty_cons (es : List String) : join ("" :: es) = join es := by
  simp [join]

theorem join_cons {a : String} (ha : a ≠ "") (es : List String) :
    join (a :: es) = ⟨clean (['/'].intercalate ((a :: es).map String.toList))⟩ := by
  simp [join, ha]

theorem toList_ne_nil {a : String} (ha : a ≠ "") : a.toList ≠ [] := fun h ↦ ha (String.ext h)

theorem mk_clean_ne_empty (p : List Char) : (⟨clean p⟩ : String) ≠ "" :=
  fun h ↦ clean_ne_nil p (congrArg String.data h)

/-- `Join(Join(a, b), c) = Join(a, b, c)` unless `a` and `b` are both empty. -/
theorem join_join (a b c : String) (h : a ≠ "" ∨ b ≠ "") : join [join [a, b], c] = join [a, b, c] := by
  by_cases ha : a = ""
  · subst ha
    have hb := h.resolve_left (not_not.2 rfl)
    rw [join_empty_cons, join_empty_cons, join_cons hb, join_cons (mk_clean_ne_empty _), join_cons hb]
    simpa [List.intercalate] using congrArg String.mk (clean_append_slash (toList_ne_nil hb) c.toList)
  · rw [join_cons ha, join_cons (mk_clean_ne_empty _), join_cons ha]
    have hp : a.toList ++ '/' :: b.toList ≠ [] := by simp
    simpa [List.intercalate] using congrArg String.mk (clean_append_slash hp c.toList)

end Appstore.Os
