import Appstore.Rabbitmq.Message
import Appstore.Kube.ApiServer

namespace Appstore.Rabbitmq

open Appstore.Api Appstore.Json Appstore.Kube

/-- What a handler, and `handleMessage`, gives the consume loop: `nil`, an error,
or a panic, which nothing on the way recovers. -/
inductive HandleResult
  | ok
  | error (e : String)
  | panic (e : String)
  deriving DecidableEq, Repr

/-- `s[:n]` on the UTF-8 bytes of `s`, as the API server then receives it: a
character the slice cuts leaves one U+FFFD per byte kept, which is how
`json.Marshal` writes invalid UTF-8. `none` is the out-of-range panic. -/
def sliceBytes : Nat → List Char → Option (List Char)
  | 0, _ => some []
  | _ + 1, [] => none
  | n + 1, c :: cs =>
    if c.utf8Size ≤ n + 1 then (c :: ·) <$> sliceBytes (n + 1 - c.utf8Size) cs
    else some (List.replicate (n + 1) replacementChar)

variable {N : Type} (nf : NumberFormat N)

/-- The record's name in `HandleDeploymentRequest`: `releaseName`, else `appName-`
and the first 8 bytes of `requestId`. `none` is the panic of that slice. -/
def requestName (p : DeploymentRequestPayload N) : Option String :=
  if p.releaseName = "" then
    (fun pre ↦ p.appName ++ "-" ++ String.mk pre) <$> sliceBytes 8 p.requestId.toList
  else some p.releaseName

def requestAppDeployment (p : DeploymentRequestPayload N) (name : String) : AppDeployment where
  metadata :=
    { name := name
      ns := p.ns
      labels := [("appstore.bitpipe.no/team", p.teamId), ("appstore.bitpipe.no/app", p.appName),
        ("appstore.bitpipe.no/request-id", p.requestId)]
      annotations := [("appstore.bitpipe.no/requested-by", p.userId)]
      finalizers := []
      deletionTimestamp := none
      generation := 0
      resourceVersion := 0
      uid := 0 }
  spec :=
    { appName := p.appName
      chartVersion := p.version
      teamId := p.teamId
      requestedBy := p.userId
      releaseName := name
      values := (fun v ↦ marshal nf (.object v)) <$> p.values
      valuesFrom := []
      suspend := false }
  status := .empty

def slicePanic (s : String) : String :=
  "runtime error: slice bounds out of range [:8] with length " ++ toString s.utf8ByteSize

/-- `HandleDeploymentRequest`: an existing record of the same name is success. -/
def handleDeploymentRequest (c : Cluster) (p : DeploymentRequestPayload N) : HandleResult × Cluster :=
  match requestName p with
  | none => (.panic (slicePanic p.requestId), c)
  | some name =>
    match c.create (requestAppDeployment nf p name) with
    | .ok (_, c') => (.ok, c')
    | .error .alreadyExists => (.ok, c)
    | .error e => (.error ("failed to create AppDeployment: " ++ e.toString), c)

def applyUpdate (p : DeploymentUpdatePayload N) (ad : AppDeployment) : AppDeployment :=
  let spec := if p.version ≠ "" then { ad.spec with chartVersion := p.version } else ad.spec
  { ad with
    spec := match p.values with
      | some v => { spec with values := some (marshal nf (.object v)) }
      | none => spec }

def teamMismatch (expected got : String) : String :=
  "team mismatch: expected " ++ expected ++ ", got " ++ got

def checkUpdate (c : Cluster) (p : DeploymentUpdatePayload N) : Except HandleResult AppDeployment :=
  match c.get ⟨p.ns, p.name⟩ with
  | .error .notFound => .error (.error ("AppDeployment not found: " ++ p.ns ++ "/" ++ p.name))
  | .error e => .error (.error ("failed to get AppDeployment: " ++ e.toString))
  | .ok ad =>
    if ad.spec.teamId ≠ p.teamId then .error (.error (teamMismatch ad.spec.teamId p.teamId))
    else .ok (applyUpdate nf p ad)

def updateChecked (c : Cluster) (ad : AppDeployment) : HandleResult × Cluster :=
  match c.update ad with
  | .ok (_, c') => (.ok, c')
  | .error e => (.error ("failed to update AppDeployment: " ++ e.toString), c)

def handleDeploymentUpdate (c : Cluster) (p : DeploymentUpdatePayload N) : HandleResult × Cluster :=
  match checkUpdate nf c p with
  | .error r => (r, c)
  | .ok ad => updateChecked c ad

def checkDelete (c : Cluster) (p : DeploymentDeletePayload) : Except HandleResult AppDeployment :=
  match c.get ⟨p.ns, p.name⟩ with
  | .error .notFound => .error .ok
  | .error e => .error (.error ("failed to get AppDeployment: " ++ e.toString))
  | .ok ad =>
    if ad.spec.teamId ≠ p.teamId then .error (.error (teamMismatch ad.spec.teamId p.teamId))
    else .ok ad

/-- The `client.Delete` that ends `HandleDeploymentDelete`: by name, with no
precondition on the object checked. -/
def deleteChecked (c : Cluster) (ad : AppDeployment) : HandleResult × Cluster :=
  match c.delete ad.key with
  | .ok c' => (.ok, c')
  | .error .notFound => (.ok, c)
  | .error e => (.error ("failed to delete AppDeployment: " ++ e.toString), c)

def handleDeploymentDelete (c : Cluster) (p : DeploymentDeletePayload) : HandleResult × Cluster :=
  match checkDelete c p with
  | .error r => (r, c)
  | .ok ad => deleteChecked c ad

theorem checkUpdate_ok {c : Cluster} {p : DeploymentUpdatePayload N} {ad : AppDeployment}
    (h : checkUpdate nf c p = .ok ad) :
    ∃ x, c.appDeployments ⟨p.ns, p.name⟩ = some x ∧ x.spec.teamId = p.teamId ∧ ad = applyUpdate nf p x := by
  unfold checkUpdate at h
  rcases hg : c.get ⟨p.ns, p.name⟩ with e | x <;> simp only [hg] at h
  · cases e <;> cases h
  · split_ifs at h with ht
    cases h
    exact ⟨x, Cluster.get_ok hg, not_not.1 ht, rfl⟩

theorem checkUpdate_error {c : Cluster} {p : DeploymentUpdatePayload N} {r : HandleResult}
    (h : checkUpdate nf c p = .error r) : ∃ e, r = .error e := by
  unfold checkUpdate at h
  rcases hg : c.get ⟨p.ns, p.name⟩ with e | x <;> simp only [hg] at h
  · cases e <;> (cases h; exact ⟨_, rfl⟩)
  · split_ifs at h
    cases h
    exact ⟨_, rfl⟩

theorem checkDelete_ok {c : Cluster} {p : DeploymentDeletePayload} {ad : AppDeployment}
    (h : checkDelete c p = .ok ad) :
    c.appDeployments ⟨p.ns, p.name⟩ = some ad ∧ ad.spec.teamId = p.teamId := by
  unfold checkDelete at h
  rcases hg : c.get ⟨p.ns, p.name⟩ with e | x <;> simp only [hg] at h
  · cases e <;> cases h
  · split_ifs at h with ht
    cases h
    exact ⟨Cluster.get_ok hg, not_not.1 ht⟩

theorem checkDelete_error {c : Cluster} {p : DeploymentDeletePayload} {r : HandleResult}
    (h : checkDelete c p = .error r) :
    (r = .ok ∧ c.appDeployments ⟨p.ns, p.name⟩ = none) ∨ ∃ e, r = .error e := by
  unfold checkDelete at h
  rcases hg : c.get ⟨p.ns, p.name⟩ with e | x <;> simp only [hg] at h
  · cases e <;> cases h <;> try exact .inr ⟨_, rfl⟩
    refine .inl ⟨rfl, ?_⟩
    unfold Cluster.get at hg
    split at hg <;> first | assumption | cases hg
  · split_ifs at h
    cases h
    exact .inr ⟨_, rfl⟩

theorem sliceBytes_eq_none (n : Nat) (cs : List Char) :
    sliceBytes n cs = none ↔ String.utf8ByteSize.go cs < n := by
  induction cs generalizing n with
  | nil => cases n <;> simp [sliceBytes, String.utf8ByteSize.go]
  | cons c cs ih =>
    cases n with
    | zero => simp [sliceBytes]
    | succ n =>
      simp only [sliceBytes, String.utf8ByteSize.go]
      split_ifs with h
      · simp only [Option.map_eq_map, Option.map_eq_none', ih]
        omega
      · simp only [reduceCtorEq, false_iff, not_lt]
        omega

theorem requestName_eq_none (p : DeploymentRequestPayload N) :
    requestName p = none ↔ p.releaseName = "" ∧ p.requestId.utf8ByteSize < 8 := by
  unfold requestName
  split_ifs with h
  · simp only [Option.map_eq_map, Option.map_eq_none', sliceBytes_eq_none, h, true_and]
    rfl
  · simp [h]

theorem handleDeploymentRequest_panic_iff (c : Cluster) (p : DeploymentRequestPayload N) :
    (∃ e, (handleDeploymentRequest nf c p).1 = .panic e) ↔ requestName p = none := by
  unfold handleDeploymentRequest
  rcases requestName p with _ | name
  · simp
  · simp only [reduceCtorEq, iff_false, not_exists]
    intro e
    split <;> simp

/-- What a request handled with `nil` leaves: a record under the request's name,
built from the request unless one was stored there before, in which case the store
is unchanged. -/
def RequestStored (c c' : Cluster) (p : DeploymentRequestPayload N) : Prop :=
  ∃ name x, requestName p = some name ∧ c'.appDeployments ⟨p.ns, name⟩ = some x ∧
    (c.appDeployments ⟨p.ns, name⟩ = none → x.spec = (requestAppDeployment nf p name).spec) ∧
    ((c.appDeployments ⟨p.ns, name⟩).isSome → c' = c)

theorem request_ok_stored (c : Cluster) (p : DeploymentRequestPayload N)
    (hok : (handleDeploymentRequest nf c p).1 = .ok) :
    RequestStored nf c (handleDeploymentRequest nf c p).2 p := by
  unfold handleDeploymentRequest at hok ⊢
  rcases hn : requestName p with _ | name
  · simp [hn] at hok
  simp only [hn] at hok ⊢
  rcases hc : c.create (requestAppDeployment nf p name) with e | ⟨ad', c'⟩
  · have he : e = .alreadyExists := by cases e <;> simp_all
    subst he
    obtain ⟨x, hx⟩ := Option.isSome_iff_exists.1 (Cluster.create_alreadyExists hc)
    exact ⟨name, x, hn, hx, fun h ↦ Option.noConfusion (h.symm.trans hx), fun _ ↦ rfl⟩
  · obtain ⟨hfree, hst, hspec, -⟩ := Cluster.create_ok hc
    refine ⟨name, ad', hn, hst, fun _ ↦ hspec, fun h ↦ ?_⟩
    simp [AppDeployment.key, requestAppDeployment] at hfree
    simp [hfree] at h

theorem handleDeploymentUpdate_ne_panic (c : Cluster) (p : DeploymentUpdatePayload N) (e : String) :
    (handleDeploymentUpdate nf c p).1 ≠ .panic e := by
  unfold handleDeploymentUpdate checkUpdate updateChecked
  split
  · rename_i r hr
    split at hr <;> (try split_ifs at hr) <;> cases hr <;> simp
  · split <;> simp

theorem handleDeploymentDelete_ne_panic (c : Cluster) (p : DeploymentDeletePayload) (e : String) :
    (handleDeploymentDelete c p).1 ≠ .panic e := by
  unfold handleDeploymentDelete checkDelete deleteChecked
  split
  · rename_i r hr
    split at hr <;> (try split_ifs at hr) <;> cases hr <;> simp
  · split <;> simp

variable {T : Type} (tf : TimeFormat T)

def handleMessage (c : Cluster) (body : List Char) : HandleResult × Cluster :=
  match unmarshalMessage tf body with
  | .error e => (.error ("failed to unmarshal message: " ++ e), c)
  | .ok env =>
    if env.type = messageTypeDeploymentRequest then
      match unmarshalRequest nf env.payload with
      | .error e => (.error ("failed to unmarshal deployment request payload: " ++ e), c)
      | .ok p => handleDeploymentRequest nf c p
    else if env.type = messageTypeDeploymentUpdate then
      match unmarshalUpdate nf env.payload with
      | .error e => (.error ("failed to unmarshal deployment update payload: " ++ e), c)
      | .ok p => handleDeploymentUpdate nf c p
    else if env.type = messageTypeDeploymentDelete then
      match unmarshalDelete env.payload with
      | .error e => (.error ("failed to unmarshal deployment delete payload: " ++ e), c)
      | .ok p => handleDeploymentDelete c p
    else (.error ("unknown message type: " ++ env.type), c)

/-- `handleMessage` panics on a body exactly when it decodes to a deployment
request with no release name and a `requestId` shorter than 8 bytes. -/
theorem handleMessage_panic_iff (c : Cluster) (body : List Char) :
    (∃ e, (handleMessage nf tf c body).1 = .panic e) ↔
      ∃ env p, unmarshalMessage tf body = .ok env ∧ env.type = messageTypeDeploymentRequest ∧
        unmarshalRequest nf env.payload = .ok p ∧ p.releaseName = "" ∧ p.requestId.utf8ByteSize < 8 := by
  unfold handleMessage
  rcases unmarshalMessage tf body with e | env
  · simp
  by_cases hr : env.type = messageTypeDeploymentRequest
  · rcases hp : unmarshalRequest nf env.payload with e | p
    · simp [hr, hp]
    · simp [hr, hp, handleDeploymentRequest_panic_iff, requestName_eq_none]
  · simp only [hr, if_false]
    constructor
    · rintro ⟨e, he⟩
      split_ifs at he
      · split at he
        · cases he
        · exact (handleDeploymentUpdate_ne_panic nf c _ e he).elim
      · split at he
        · cases he
        · exact (handleDeploymentDelete_ne_panic c _ e he).elim
    · rintro ⟨env', p, h, h', -⟩
      cases h
      exact absurd h' hr

/-- How a handling leaves the store: as it found it, or as the one write of its
handler left it. -/
inductive StoreWrite (c : Cluster) : Cluster → Prop
  | unchanged : StoreWrite c c
  | create {p : DeploymentRequestPayload N} {name : String} {ad' : AppDeployment} {c' : Cluster}
      (hn : requestName p = some name) (h : c.create (requestAppDeployment nf p name) = .ok (ad', c')) :
      StoreWrite c c'
  | update {p : DeploymentUpdatePayload N} {ad ad' : AppDeployment} {c' : Cluster}
      (hc : checkUpdate nf c p = .ok ad) (h : c.update ad = .ok (ad', c')) : StoreWrite c c'
  | delete {p : DeploymentDeletePayload} {ad : AppDeployment} {c' : Cluster}
      (hc : checkDelete c p = .ok ad) (h : c.delete ad.key = .ok c') : StoreWrite c c'

theorem handleDeploymentRequest_storeWrite (c : Cluster) (p : DeploymentRequestPayload N) :
    StoreWrite nf c (handleDeploymentRequest nf c p).2 := by
  unfold handleDeploymentRequest
  rcases hn : requestName p with _ | name
  · exact .unchanged
  dsimp only
  rcases hc : c.create (requestAppDeployment nf p name) with e | ⟨ad', c'⟩
  · cases e <;> exact .unchanged
  · exact .create hn hc

theorem handleDeploymentUpdate_storeWrite (c : Cluster) (p : DeploymentUpdatePayload N) :
    StoreWrite nf c (handleDeploymentUpdate nf c p).2 := by
  unfold handleDeploymentUpdate updateChecked
  rcases hc : checkUpdate nf c p with r | ad
  · exact .unchanged
  dsimp only
  rcases hu : c.update ad with e | ⟨ad', c'⟩
  · exact .unchanged
  · exact .update hc hu

theorem handleDeploymentDelete_storeWrite (c : Cluster) (p : DeploymentDeletePayload) :
    StoreWrite nf c (handleDeploymentDelete c p).2 := by
  unfold handleDeploymentDelete deleteChecked
  rcases hc : checkDelete c p with r | ad
  · exact .unchanged
  dsimp only
  rcases hd : c.delete ad.key with e | c'
  · cases e <;> exact .unchanged
  · exact .delete hc hd

/-- A handling writes the store at most once, through its handler's `Create`,
`Update` or `Delete`. -/
theorem handleMessage_storeWrite (c : Cluster) (body : List Char) :
    StoreWrite nf c (handleMessage nf tf c body).2 := by
  unfold handleMessage
  rcases unmarshalMessage tf body with e | env
  · exact .unchanged
  dsimp only
  split_ifs
  · rcases unmarshalRequest nf env.payload with e | p
    · exact .unchanged
    · exact handleDeploymentRequest_storeWrite nf c p
  · rcases unmarshalUpdate nf env.payload with e | p
    · exact .unchanged
    · exact handleDeploymentUpdate_storeWrite nf c p
  · rcases unmarshalDelete env.payload with e | p
    · exact .unchanged
    · exact handleDeploymentDelete_storeWrite nf c p
  · exact .unchanged

def shortIdRequest : List Char :=
  "\x7b\"type\":\"deployment.request\",\"payload\":\x7b\"requestId\":\"abc\",\"appName\":\"postgresql\",\"namespace\":\"team-a\"\x7d\x7d".toList

theorem short_request_id_panics (c : Cluster) :
    handleMessage nf tf c shortIdRequest = (.panic (slicePanic "abc"), c) := by
  rfl

def dbRequest (team : String) : DeploymentRequestPayload Nat :=
  ⟨"0d1f7a52-3c4b-4e8a-9f60-2b7c1d9e8a41", team, "user-1", "postgresql", "team-a", "db", "", none⟩

theorem dbRequest_stored :
    (handleDeploymentRequest decimalFormat (Cluster.empty ["team-a"]) (dbRequest "team-a")).1 = .ok ∧
      RequestStored decimalFormat (Cluster.empty ["team-a"])
        (handleDeploymentRequest decimalFormat (Cluster.empty ["team-a"]) (dbRequest "team-a")).2
        (dbRequest "team-a") :=
  have hok : (handleDeploymentRequest decimalFormat (Cluster.empty ["team-a"]) (dbRequest "team-a")).1 = .ok := by
    decide
  ⟨hok, request_ok_stored decimalFormat _ _ hok⟩

theorem shared_name_absorbed :
    let c := (handleDeploymentRequest decimalFormat (Cluster.empty ["team-a"]) (dbRequest "team-a")).2
    (handleDeploymentRequest decimalFormat c (dbRequest "team-b")).1 = .ok ∧
      ((handleDeploymentRequest decimalFormat c (dbRequest "team-b")).2.appDeployments
        ⟨"team-a", "db"⟩).map (·.spec.teamId) = some "team-a" := by
  decide

end Appstore.Rabbitmq
