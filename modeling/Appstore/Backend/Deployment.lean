import Appstore.Rabbitmq.Publisher

namespace Appstore.Backend

open Appstore.Api Appstore.Json Appstore.Kube Appstore.Rabbitmq

/-- `deployment.CreateRequest`. -/
structure CreateRequest (N : Type) where
  appName : String
  ns : String
  releaseName : String
  version : String
  values : Option (Fields N)

/-- `deployment.UpdateRequest`. -/
structure UpdateRequest (N : Type) where
  version : String
  values : Option (Fields N)

/-- A UUID as `uuid.New` makes it: its 32 hex digits. -/
structure Uuid where
  digits : List (Fin 16)
  length : digits.length = 32

def Uuid.toString (u : Uuid) : String :=
  let h := u.digits.map (hexDigit ·.val)
  String.mk (h.take 8 ++ '-' :: (h.drop 8).take 4 ++ '-' :: (h.drop 12).take 4 ++ '-' :: (h.drop 16).take 4 ++
    '-' :: h.drop 20)

def Uuid.firstGroup (u : Uuid) : List Char := (u.digits.take 8).map (hexDigit ·.val)

variable {N T : Type} (nf : NumberFormat N) (tf : TimeFormat T)

def createRequestFields : List (GoField (CreateRequest N)) :=
  [stringField "appName" fun v q ↦ { q with appName := v },
   stringField "namespace" fun v q ↦ { q with ns := v },
   stringField "releaseName" fun v q ↦ { q with releaseName := v },
   stringField "version" fun v q ↦ { q with version := v },
   mapField nf "values" (·.values) fun v q ↦ { q with values := v }]

def updateRequestFields : List (GoField (UpdateRequest N)) :=
  [stringField "version" fun v q ↦ { q with version := v },
   mapField nf "values" (·.values) fun v q ↦ { q with values := v }]

/-- `json.NewDecoder(body).Decode(&s)`: the first JSON value of the body, decoded
into `s`; what follows that value is not read. -/
def decodeBody {S : Type} (goType structName : String) (fields : List (GoField S)) (s : S)
    (body : List Char) : Except String S :=
  match valueText (body.length + 1) body with
  | .error e => .error e
  | .ok (raw, _) => unmarshalStruct goType structName fields s raw

def decodeCreateRequest (body : List Char) : Except String (CreateRequest N) :=
  decodeBody "deployment.CreateRequest" "CreateRequest" (createRequestFields nf) ⟨"", "", "", "", none⟩ body

def decodeUpdateRequest (body : List Char) : Except String (UpdateRequest N) :=
  decodeBody "deployment.UpdateRequest" "UpdateRequest" (updateRequestFields nf) ⟨"", none⟩ body

/-- What a handler writes: the status code, and the JSON body `json.Encoder` writes
of a Go map. -/
structure Response (N : Type) where
  status : Nat
  body : Value N

def respondError (status : Nat) (message : String) : Response N := ⟨status, .object [("error", .string message)]⟩

def accepted (requestId message : String) : Response N :=
  ⟨202, .object [("message", .string message), ("requestId", .string requestId)]⟩

/-- The handler's collaborators: `publisher` and `k8sClient` are `nil` when their
setup failed when the backend started. -/
structure Handler where
  publisher : Bool
  k8sClient : Bool

def createPayload (req : CreateRequest N) (u : Uuid) : DeploymentRequestPayload N :=
  ⟨u.toString, "default-team", "anonymous", req.appName, req.ns, req.releaseName, req.version, req.values⟩

def updatePayload (req : UpdateRequest N) (u : Uuid) (team name ns : String) : DeploymentUpdatePayload N :=
  ⟨u.toString, team, "anonymous", name, ns, req.version, req.values⟩

/-- `Handler.Create`, with the id `uuid.New` gave and the time of `time.Now`;
`publishFails` is a failure of `PublishWithContext`. -/
def create (h : Handler) (publishFails : Bool) (body : List Char) (u : Uuid) (now : T) :
    Response N × Option (List Char) :=
  if !h.publisher then (respondError 503 "RabbitMQ not available", none)
  else match decodeCreateRequest nf body with
    | .error _ => (respondError 400 "invalid request body", none)
    | .ok req =>
      if req.appName = "" then (respondError 400 "appName is required", none)
      else if req.ns = "" then (respondError 400 "namespace is required", none)
      else if publishFails then (respondError 500 "failed to create deployment", none)
      else (accepted u.toString "deployment request accepted",
        some (publishDeploymentRequest nf tf (createPayload req u) now))

def getAppDeployment (c : Cluster) (fault : Bool) (ns name : String) : Except String String :=
  if fault then .error ("failed to get AppDeployment: " ++ ApiError.unavailable.toString)
  else match c.get ⟨ns, name⟩ with
    | .error e => .error ("failed to get AppDeployment: " ++ e.toString)
    | .ok ad => .ok ad.spec.teamId

def queryNamespace (param : String) : String := if param = "" then "default" else param

def update (h : Handler) (c : Cluster) (getFault publishFails : Bool) (name nsParam : String) (body : List Char)
    (u : Uuid) (now : T) : Response N × Option (List Char) :=
  if !h.k8sClient || !h.publisher then (respondError 503 "Kubernetes or RabbitMQ not available", none)
  else if name = "" then (respondError 400 "deployment name is required", none)
  else match decodeUpdateRequest nf body with
    | .error _ => (respondError 400 "invalid request body", none)
    | .ok req =>
      let ns := queryNamespace nsParam
      match getAppDeployment c getFault ns name with
      | .error _ => (respondError 404 "deployment not found", none)
      | .ok team =>
        if publishFails then (respondError 500 "failed to update deployment", none)
        else (accepted u.toString "deployment update request accepted",
          some (publishDeploymentUpdate nf tf (updatePayload req u team name ns) now))

def delete (h : Handler) (c : Cluster) (getFault publishFails : Bool) (name nsParam : String) (u : Uuid)
    (now : T) : Response N × Option (List Char) :=
  if !h.k8sClient || !h.publisher then (respondError 503 "Kubernetes or RabbitMQ not available", none)
  else if name = "" then (respondError 400 "deployment name is required", none)
  else
    let ns := queryNamespace nsParam
    match getAppDeployment c getFault ns name with
    | .error _ => (respondError 404 "deployment not found", none)
    | .ok team =>
      if publishFails then (respondError 500 "failed to delete deployment", none)
      else (accepted u.toString "deployment delete request accepted",
        some (@publishDeploymentDelete N T nf tf ⟨u.toString, team, "anonymous", name, ns⟩ now))

theorem decodeMap_valuesAny {raw : List Char} {cur v : Option (Fields N)} (hcur : ValuesAny cur)
    (h : decodeMap nf raw cur = .set v) : ValuesAny v := by
  unfold decodeMap at h
  split at h
  · cases h; trivial
  · split at h
    · cases h
      refine toAnyFields_isAny nf _ _ ?_ ‹_›
      cases cur with
      | none => exact ⟨List.Pairwise.nil, trivial⟩
      | some fs => exact hcur
    · cases h
  · cases h
  · cases h

theorem decodeBody_inv {S : Type} (P : S → Prop) (goType structName : String) (fields : List (GoField S))
    (hf : ∀ f ∈ fields, ∀ raw s s', P s → f.decode raw s = .set s' → P s') {s s' : S} {body : List Char}
    (h : decodeBody goType structName fields s body = .ok s') (hs : P s) : P s' := by
  unfold decodeBody at h
  split at h
  · cases h
  · exact unmarshalStruct_inv P structName fields hf goType hs h

theorem decodeCreateRequest_valuesAny {body : List Char} {req : CreateRequest N}
    (h : decodeCreateRequest nf body = .ok req) : ValuesAny req.values := by
  refine decodeBody_inv (fun q : CreateRequest N ↦ ValuesAny q.values) _ _ _ ?_ h trivial
  simp only [createRequestFields, List.mem_cons, List.mem_singleton, List.not_mem_nil, or_false]
  rintro f (rfl | rfl | rfl | rfl | rfl) raw s s' hs hd <;> dsimp only [stringField, mapField] at hd <;>
    obtain ⟨a, ha, rfl⟩ := Store.into_eq_set hd
  exacts [hs, hs, hs, hs, decodeMap_valuesAny nf hs ha]

theorem decodeUpdateRequest_valuesAny {body : List Char} {req : UpdateRequest N}
    (h : decodeUpdateRequest nf body = .ok req) : ValuesAny req.values := by
  refine decodeBody_inv (fun q : UpdateRequest N ↦ ValuesAny q.values) _ _ _ ?_ h trivial
  simp only [updateRequestFields, List.mem_cons, List.mem_singleton, List.not_mem_nil, or_false]
  rintro f (rfl | rfl) raw s s' hs hd <;> dsimp only [stringField, mapField] at hd <;>
    obtain ⟨a, ha, rfl⟩ := Store.into_eq_set hd
  exacts [hs, decodeMap_valuesAny nf hs ha]

theorem hexDigit_utf8Size (d : Fin 16) : (hexDigit d.val).utf8Size = 1 := by
  revert d
  decide

theorem sliceBytes_ascii (l r : List Char) (h : ∀ c ∈ l, c.utf8Size = 1) :
    sliceBytes l.length (l ++ r) = some l := by
  induction l with
  | nil => rw [List.length_nil, sliceBytes]
  | cons c l ih =>
    have hc := h c (List.mem_cons_self _ _)
    rw [List.length_cons, List.cons_append, sliceBytes, if_pos (by omega), hc, Nat.add_sub_cancel,
      ih fun c' hc' ↦ h c' (List.mem_cons_of_mem _ hc')]
    rfl

theorem Uuid.sliceBytes_toString (u : Uuid) : sliceBytes 8 u.toString.toList = some u.firstGroup := by
  have hlen : u.firstGroup.length = 8 := by simp [Uuid.firstGroup, u.length]
  have hascii : ∀ c ∈ u.firstGroup, c.utf8Size = 1 := by
    intro c hc
    obtain ⟨d, -, rfl⟩ := List.mem_map.1 hc
    exact hexDigit_utf8Size d
  obtain ⟨rest, hrest⟩ : u.firstGroup <+: u.toString.toList := by
    simp only [Uuid.toString, Uuid.firstGroup, String.toList, List.map_take, List.append_assoc]
    exact List.prefix_append _ _
  rw [← hrest, ← hlen, sliceBytes_ascii _ _ hascii]

theorem requestName_createPayload (req : CreateRequest N) (u : Uuid) :
    requestName (createPayload req u).sent =
      some (if req.releaseName = "" then req.appName ++ "-" ++ String.mk u.firstGroup else req.releaseName) := by
  simp only [requestName, createPayload, DeploymentRequestPayload.sent]
  split_ifs
  · rw [Uuid.sliceBytes_toString]
    rfl
  · rfl

theorem create_published {h : Handler} {publishFails : Bool} {body : List Char} {u : Uuid} {now : T}
    {msg : List Char} (hm : (create nf tf h publishFails body u now).2 = some msg) (c : Cluster) :
    ∃ req : CreateRequest N, decodeCreateRequest nf body = .ok req ∧ req.appName ≠ "" ∧ req.ns ≠ "" ∧
      handleMessage nf tf c msg = handleDeploymentRequest nf c (createPayload req u).sent := by
  unfold create at hm
  rcases hd : decodeCreateRequest nf body with _ | req <;> simp only [hd] at hm <;> split_ifs at hm
  cases hm
  exact ⟨req, rfl, ‹_›, ‹_›,
    handleMessage_publishDeploymentRequest nf tf c _ now (decodeCreateRequest_valuesAny nf hd)⟩

/-- Every message `Create` publishes is handled by the operator as the payload built
from the request the backend decoded, an empty values map arriving as none, under
the name `releaseName`, or `appName-` and the first group of the UUID, and never
with the panic of a short request id. -/
theorem create_published_handled (h : Handler) (publishFails : Bool) (body : List Char) (u : Uuid) (now : T)
    (c : Cluster) {msg : List Char} (hm : (create nf tf h publishFails body u now).2 = some msg) :
    ∃ req : CreateRequest N, decodeCreateRequest nf body = .ok req ∧ req.appName ≠ "" ∧ req.ns ≠ "" ∧
      handleMessage nf tf c msg = handleDeploymentRequest nf c (createPayload req u).sent ∧
      requestName (createPayload req u).sent =
        some (if req.releaseName = "" then req.appName ++ "-" ++ String.mk u.firstGroup else req.releaseName) ∧
      ∀ e, (handleMessage nf tf c msg).1 ≠ .panic e := by
  obtain ⟨req, hd, ha, hn, hmsg⟩ := create_published nf tf hm c
  have hname := requestName_createPayload req u
  refine ⟨req, hd, ha, hn, hmsg, hname, fun e he ↦ ?_⟩
  have hnone := (handleDeploymentRequest_panic_iff nf c _).1 ⟨e, hmsg ▸ he⟩
  rw [hname] at hnone
  cases hnone

def zeroUuid : Uuid := ⟨List.replicate 32 0, rfl⟩

def dbCreateBody : List Char := "\x7b\"appName\":\"postgresql\",\"namespace\":\"team-a\"\x7d".toList

theorem dbCreate_handled :
    ∃ msg, (create decimalFormat zeroTime ⟨true, true⟩ false dbCreateBody zeroUuid ()).2 = some msg ∧
      ∃ req : CreateRequest Nat, decodeCreateRequest decimalFormat dbCreateBody = .ok req ∧ req.appName ≠ "" ∧
        req.ns ≠ "" ∧
        handleMessage decimalFormat zeroTime (Cluster.empty ["team-a"]) msg =
          handleDeploymentRequest decimalFormat (Cluster.empty ["team-a"]) (createPayload req zeroUuid).sent ∧
        requestName (createPayload req zeroUuid).sent = some (if req.releaseName = "" then
          req.appName ++ "-" ++ String.mk zeroUuid.firstGroup else req.releaseName) ∧
        ∀ e, (handleMessage decimalFormat zeroTime (Cluster.empty ["team-a"]) msg).1 ≠ .panic e :=
  have hm : (create decimalFormat zeroTime ⟨true, true⟩ false dbCreateBody zeroUuid ()).2 =
      some (publishDeploymentRequest decimalFormat zeroTime (createPayload ⟨"postgresql", "team-a", "", "", none⟩
        zeroUuid) ()) := by
    rfl
  ⟨_, hm, create_published_handled decimalFormat zeroTime ⟨true, true⟩ false dbCreateBody zeroUuid ()
    (Cluster.empty ["team-a"]) hm⟩

theorem getAppDeployment_ok {c : Cluster} {fault : Bool} {ns name team : String}
    (h : getAppDeployment c fault ns name = .ok team) :
    ∃ x, c.appDeployments ⟨ns, name⟩ = some x ∧ team = x.spec.teamId := by
  unfold getAppDeployment at h
  split_ifs at h
  rcases hg : c.get ⟨ns, name⟩ with _ | x <;> simp only [hg] at h <;> cases h
  exact ⟨x, Cluster.get_ok hg, rfl⟩

theorem checkUpdate_team {c : Cluster} {p : DeploymentUpdatePayload N} {y : AppDeployment}
    (hy : c.appDeployments ⟨p.ns, p.name⟩ = some y) (ht : y.spec.teamId = p.teamId) :
    checkUpdate nf c p = .ok (applyUpdate nf p y) := by
  simp [checkUpdate, Cluster.get, hy, ht]

theorem checkDelete_team {c : Cluster} {p : DeploymentDeletePayload} {y : AppDeployment}
    (hy : c.appDeployments ⟨p.ns, p.name⟩ = some y) (ht : y.spec.teamId = p.teamId) :
    checkDelete c p = .ok y := by
  simp [checkDelete, Cluster.get, hy, ht]

theorem update_published {h : Handler} {c : Cluster} {getFault publishFails : Bool} {name nsParam : String}
    {body : List Char} {u : Uuid} {now : T} {msg : List Char}
    (hm : (update nf tf h c getFault publishFails name nsParam body u now).2 = some msg) (c' : Cluster) :
    ∃ req x, decodeUpdateRequest nf body = .ok req ∧ c.appDeployments ⟨queryNamespace nsParam, name⟩ = some x ∧
      handleMessage nf tf c' msg =
        handleDeploymentUpdate nf c' (updatePayload req u x.spec.teamId name (queryNamespace nsParam)).sent := by
  unfold update at hm
  rcases hd : decodeUpdateRequest nf body with _ | req <;>
    rcases hg : getAppDeployment c getFault (queryNamespace nsParam) name with _ | team <;>
    simp only [hd, hg] at hm <;> split_ifs at hm
  cases hm
  obtain ⟨x, hx, rfl⟩ := getAppDeployment_ok hg
  exact ⟨req, x, rfl, hx,
    handleMessage_publishDeploymentUpdate nf tf c' _ now (decodeUpdateRequest_valuesAny nf hd)⟩

theorem delete_published {h : Handler} {c : Cluster} {getFault publishFails : Bool} {name nsParam : String}
    {u : Uuid} {now : T} {msg : List Char}
    (hm : (delete nf tf h c getFault publishFails name nsParam u now).2 = some msg) (c' : Cluster) :
    ∃ x, c.appDeployments ⟨queryNamespace nsParam, name⟩ = some x ∧
      handleMessage nf tf c' msg =
        handleDeploymentDelete c' ⟨u.toString, x.spec.teamId, "anonymous", name, queryNamespace nsParam⟩ := by
  unfold delete at hm
  rcases hg : getAppDeployment c getFault (queryNamespace nsParam) name with _ | team <;>
    simp only [hg] at hm <;> split_ifs at hm
  cases hm
  obtain ⟨x, hx, rfl⟩ := getAppDeployment_ok hg
  exact ⟨x, hx, handleMessage_publishDeploymentDelete nf tf c' _ now⟩

/-- `Update` and `Delete` send the team of the record they read, so the operator's
team check passes on that record, and on it as any later writes that keep records
(`Cluster.Kept`: the controller's) leave it: no request the backend sends is refused
for its team. -/
theorem backend_team_check_passes (h : Handler) (c c' : Cluster) (hk : Cluster.Kept c c')
    (getFault publishFails : Bool) (name nsParam : String) (body : List Char) (u : Uuid) (now : T) :
    (∀ msg, (update nf tf h c getFault publishFails name nsParam body u now).2 = some msg →
      ∃ req x, decodeUpdateRequest nf body = .ok req ∧
        c.appDeployments ⟨queryNamespace nsParam, name⟩ = some x ∧
        handleMessage nf tf c' msg =
          handleDeploymentUpdate nf c' (updatePayload req u x.spec.teamId name (queryNamespace nsParam)).sent ∧
        ∀ y, c'.appDeployments ⟨queryNamespace nsParam, name⟩ = some y →
          checkUpdate nf c' (updatePayload req u x.spec.teamId name (queryNamespace nsParam)).sent =
            .ok (applyUpdate nf (updatePayload req u x.spec.teamId name (queryNamespace nsParam)).sent y)) ∧
    (∀ msg, (delete nf tf h c getFault publishFails name nsParam u now).2 = some msg →
      ∃ x, c.appDeployments ⟨queryNamespace nsParam, name⟩ = some x ∧
        handleMessage nf tf c' msg =
          handleDeploymentDelete c' ⟨u.toString, x.spec.teamId, "anonymous", name, queryNamespace nsParam⟩ ∧
        ∀ y, c'.appDeployments ⟨queryNamespace nsParam, name⟩ = some y →
          checkDelete c' ⟨u.toString, x.spec.teamId, "anonymous", name, queryNamespace nsParam⟩ = .ok y) := by
  refine ⟨fun msg hm ↦ ?_, fun msg hm ↦ ?_⟩
  · obtain ⟨req, x, hd, hx, hmsg⟩ := update_published nf tf hm c'
    exact ⟨req, x, hd, hx, hmsg, fun y hy ↦ checkUpdate_team nf hy (hk.spec_eq hx hy ▸ rfl)⟩
  · obtain ⟨x, hx, hmsg⟩ := delete_published nf tf hm c'
    exact ⟨x, hx, hmsg, fun y hy ↦ checkDelete_team hy (hk.spec_eq hx hy ▸ rfl)⟩

def dbCluster : Cluster := (handleDeploymentRequest decimalFormat (Cluster.empty ["team-a"]) (dbRequest "team-a")).2

def versionBody : List Char := "\x7b\"version\":\"1.2.0\"\x7d".toList

theorem db_update_delete_checked :
    (∃ msg,
      (update decimalFormat zeroTime ⟨true, true⟩ dbCluster false false "db" "team-a" versionBody zeroUuid ()).2 =
        some msg ∧
      ∃ req x, decodeUpdateRequest decimalFormat versionBody = .ok req ∧
        dbCluster.appDeployments ⟨queryNamespace "team-a", "db"⟩ = some x ∧
        handleMessage decimalFormat zeroTime dbCluster msg = handleDeploymentUpdate decimalFormat dbCluster
          (updatePayload req zeroUuid x.spec.teamId "db" (queryNamespace "team-a")).sent ∧
        ∀ y, dbCluster.appDeployments ⟨queryNamespace "team-a", "db"⟩ = some y →
          checkUpdate decimalFormat dbCluster
              (updatePayload req zeroUuid x.spec.teamId "db" (queryNamespace "team-a")).sent =
            .ok (applyUpdate decimalFormat
              (updatePayload req zeroUuid x.spec.teamId "db" (queryNamespace "team-a")).sent y)) ∧
    (∃ msg,
      (delete decimalFormat zeroTime ⟨true, true⟩ dbCluster false false "db" "team-a" zeroUuid ()).2 = some msg ∧
      ∃ x, dbCluster.appDeployments ⟨queryNamespace "team-a", "db"⟩ = some x ∧
        handleMessage decimalFormat zeroTime dbCluster msg =
          handleDeploymentDelete dbCluster
            ⟨zeroUuid.toString, x.spec.teamId, "anonymous", "db", queryNamespace "team-a"⟩ ∧
        ∀ y, dbCluster.appDeployments ⟨queryNamespace "team-a", "db"⟩ = some y →
          checkDelete dbCluster
            ⟨zeroUuid.toString, x.spec.teamId, "anonymous", "db", queryNamespace "team-a"⟩ = .ok y) :=
  have hu :
      (update decimalFormat zeroTime ⟨true, true⟩ dbCluster false false "db" "team-a" versionBody zeroUuid ()).2 =
      some (publishDeploymentUpdate decimalFormat zeroTime
        (updatePayload ⟨"1.2.0", none⟩ zeroUuid "team-a" "db" "team-a") ()) := by
    rfl
  have hd : (delete decimalFormat zeroTime ⟨true, true⟩ dbCluster false false "db" "team-a" zeroUuid ()).2 =
      some (@publishDeploymentDelete Nat Unit decimalFormat zeroTime
        ⟨zeroUuid.toString, "team-a", "anonymous", "db", "team-a"⟩ ()) := by
    rfl
  have h := backend_team_check_passes decimalFormat zeroTime ⟨true, true⟩ dbCluster dbCluster (.refl _) false false
    "db" "team-a" versionBody zeroUuid ()
  ⟨⟨_, hu, h.1 _ hu⟩, ⟨_, hd, h.2 _ hd⟩⟩

end Appstore.Backend
