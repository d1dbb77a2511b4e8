import Appstore.Json.RoundTrip
import Appstore.Rabbitmq.Handler
import Appstore.Controller.Values

namespace Appstore.Rabbitmq

open Appstore.Api Appstore.Json Appstore.Kube Appstore.Controller

variable {N T : Type} (nf : NumberFormat N) (tf : TimeFormat T)

/-- The fields `json.Marshal` writes for the backend's `DeploymentRequestPayload`,
in declaration order, the `omitempty` ones left out when empty. -/
def requestPayloadFields (p : DeploymentRequestPayload N) : Fields N :=
  [("requestId", .string p.requestId), ("teamId", .string p.teamId), ("userId", .string p.userId),
    ("appName", .string p.appName), ("namespace", .string p.ns)] ++
    omitEmpty (p.releaseName = "") "releaseName" (.string p.releaseName) ++
    omitEmpty (p.version = "") "version" (.string p.version) ++
    omitEmpty (mapIsEmpty p.values) "values" (mapValue p.values)

def updatePayloadFields (p : DeploymentUpdatePayload N) : Fields N :=
  [("requestId", .string p.requestId), ("teamId", .string p.teamId), ("userId", .string p.userId),
    ("name", .string p.name), ("namespace", .string p.ns)] ++
    omitEmpty (p.version = "") "version" (.string p.version) ++
    omitEmpty (mapIsEmpty p.values) "values" (mapValue p.values)

def deletePayloadFields (p : DeploymentDeletePayload) : Fields N :=
  [("requestId", .string p.requestId), ("teamId", .string p.teamId), ("userId", .string p.userId),
    ("name", .string p.name), ("namespace", .string p.ns)]

def marshalFields (fs : Fields N) : List Char := marshalStruct (fs.map fun f ↦ (f.1, marshal nf f.2))

/-- `json.Marshal` of the backend's `models.Message`. The payload, a
`json.RawMessage`, is written as it is: it is the compact text `json.Marshal`
wrote for the payload. -/
def marshalMessage (m : Message T) : List Char :=
  marshalStruct [("type", quote m.type), ("id", quote m.id), ("timestamp", marshalTime tf m.timestamp),
    ("source", quote m.source), ("payload", m.payload)]

def publishDeploymentRequest (p : DeploymentRequestPayload N) (now : T) : List Char :=
  marshalMessage tf ⟨messageTypeDeploymentRequest, p.requestId, now, "backend-api",
    marshalFields nf (requestPayloadFields p)⟩

def publishDeploymentUpdate (p : DeploymentUpdatePayload N) (now : T) : List Char :=
  marshalMessage tf ⟨messageTypeDeploymentUpdate, p.requestId, now, "backend-api",
    marshalFields nf (updatePayloadFields p)⟩

def publishDeploymentDelete (p : DeploymentDeletePayload) (now : T) : List Char :=
  marshalMessage tf ⟨messageTypeDeploymentDelete, p.requestId, now, "backend-api",
    marshalFields nf (@deletePayloadFields N p)⟩

/-- A values map as the backend's request decoding yields it: every map in it a
Go map. -/
def ValuesAny : Option (Fields N) → Prop
  | none => True
  | some fs => (Value.object fs).IsAny

/-- What `omitempty` leaves of a values map on the way: an empty map is not sent,
and arrives as nil. -/
def sentValues : Option (Fields N) → Option (Fields N)
  | some [] => none
  | v => v

theorem sentValues_eq_self {v : Option (Fields N)} : sentValues v = v ↔ v ≠ some [] := by
  match v with
  | none | some [] | some (_ :: _) => simp [sentValues]

def DeploymentRequestPayload.sent (p : DeploymentRequestPayload N) : DeploymentRequestPayload N :=
  { p with values := sentValues p.values }

def DeploymentUpdatePayload.sent (p : DeploymentUpdatePayload N) : DeploymentUpdatePayload N :=
  { p with values := sentValues p.values }

@[simp] theorem decodeString_marshal (s : String) : decodeString (marshal nf (.string s)) = .set s :=
  decodeString_quote s

theorem decodeMap_mapValue {v : Option (Fields N)} (hv : ValuesAny v) (h : mapIsEmpty v = false) :
    decodeMap nf (marshal nf (mapValue v)) none = .set (sentValues v) := by
  match v, h with
  | some (f :: fs), _ => exact decodeMap_marshal nf (f :: fs) hv

theorem unmarshalRequest_marshal (p : DeploymentRequestPayload N) (hv : ValuesAny p.values) :
    unmarshalRequest nf (marshalFields nf (requestPayloadFields p)) = .ok p.sent := by
  rw [unmarshalRequest, marshalFields, marshalStruct_map]
  apply unmarshalStruct_marshal
  obtain ⟨rid, tid, uid, app, ns, rn, ver, vals⟩ := p
  simp only [requestPayloadFields, List.map_append, List.map_cons, List.map_nil, List.cons_append,
    List.nil_append, decodeMembers, GoField.lookup, requestFields, List.find?_cons_of_pos,
    List.find?_cons_of_neg, String.reduceEq, decide_True, decide_False, not_false_eq_true,
    Bool.false_eq_true, stringField, Store.into, decodeString_marshal]
  rcases vals with _ | _ | ⟨f, fs⟩ <;> by_cases hrn : rn = "" <;> by_cases hver : ver = "" <;>
    simp [requestPayloadFields, omitEmpty, mapIsEmpty, decodeMembers, GoField.lookup, requestFields,
      stringField, mapField, Store.into, hrn, hver, DeploymentRequestPayload.sent, sentValues,
      decodeMap_mapValue nf hv]

theorem unmarshalUpdate_marshal (p : DeploymentUpdatePayload N) (hv : ValuesAny p.values) :
    unmarshalUpdate nf (marshalFields nf (updatePayloadFields p)) = .ok p.sent := by
  rw [unmarshalUpdate, marshalFields, marshalStruct_map]
  apply unmarshalStruct_marshal
  obtain ⟨rid, tid, uid, name, ns, ver, vals⟩ := p
  simp only [updatePayloadFields, List.map_append, List.map_cons, List.map_nil, List.cons_append,
    List.nil_append, decodeMembers, GoField.lookup, updateFields, List.find?_cons_of_pos,
    List.find?_cons_of_neg, String.reduceEq, decide_True, decide_False, not_false_eq_true,
    Bool.false_eq_true, stringField, Store.into, decodeString_marshal]
  rcases vals with _ | _ | ⟨f, fs⟩ <;> by_cases hver : ver = "" <;>
    simp [updatePayloadFields, omitEmpty, mapIsEmpty, decodeMembers, GoField.lookup, updateFields,
      stringField, mapField, Store.into, hver, DeploymentUpdatePayload.sent, sentValues, decodeMap_mapValue nf hv]

theorem unmarshalDelete_marshal (p : DeploymentDeletePayload) :
    unmarshalDelete (marshalFields nf (@deletePayloadFields N p)) = .ok p := by
  rw [unmarshalDelete, marshalFields, marshalStruct_map]
  apply unmarshalStruct_marshal
  simp [deletePayloadFields, decodeMembers, GoField.lookup, deleteFields, stringField, Store.into]

theorem unmarshalMessage_marshal (ty id : String) (ts : T) (src : String) (fs : Fields N) :
    unmarshalMessage tf (marshalMessage tf ⟨ty, id, ts, src, marshalFields nf fs⟩) =
      .ok ⟨ty, id, ts, src, marshalFields nf fs⟩ := by
  apply unmarshalStruct_marshalStruct nf
  · intro f hf
    simp only [List.mem_cons, List.not_mem_nil, or_false] at hf
    rcases hf with rfl | rfl | rfl | rfl | rfl
    exacts [⟨.string ty, rfl⟩, ⟨.string id, rfl⟩, ⟨_, marshalTime_eq nf tf ts⟩, ⟨.string src, rfl⟩,
      ⟨.object fs, marshalStruct_map nf fs⟩]
  · simp [decodeMembers, GoField.lookup, messageFields, stringField, timeField, rawField, Store.into,
      decodeString_quote, decodeTime_marshalTime]

theorem handleMessage_publishDeploymentRequest (c : Cluster) (p : DeploymentRequestPayload N) (now : T)
    (hv : ValuesAny p.values) :
    handleMessage nf tf c (publishDeploymentRequest nf tf p now) = handleDeploymentRequest nf c p.sent := by
  rw [handleMessage, publishDeploymentRequest,
    unmarshalMessage_marshal nf tf]
  simp [unmarshalRequest_marshal nf p hv]

theorem handleMessage_publishDeploymentUpdate (c : Cluster) (p : DeploymentUpdatePayload N) (now : T)
    (hv : ValuesAny p.values) :
    handleMessage nf tf c (publishDeploymentUpdate nf tf p now) = handleDeploymentUpdate nf c p.sent := by
  rw [handleMessage, publishDeploymentUpdate,
    unmarshalMessage_marshal nf tf]
  simp [unmarshalUpdate_marshal nf p hv, messageTypeDeploymentUpdate, messageTypeDeploymentRequest]

theorem handleMessage_publishDeploymentDelete (c : Cluster) (p : DeploymentDeletePayload) (now : T) :
    handleMessage nf tf c (publishDeploymentDelete nf tf p now) = handleDeploymentDelete c p := by
  rw [handleMessage, publishDeploymentDelete,
    unmarshalMessage_marshal nf tf]
  simp [unmarshalDelete_marshal nf p, messageTypeDeploymentDelete, messageTypeDeploymentUpdate,
    messageTypeDeploymentRequest]

theorem getValues_requestAppDeployment (c : Cluster) (faults : Nat → Bool) (p : DeploymentRequestPayload N)
    (hv : ValuesAny p.values) (name : String) :
    getValues nf c faults (requestAppDeployment nf p.sent name) = .ok (p.values.getD []) := by
  obtain ⟨rid, tid, uid, app, ns, rn, ver, _ | _ | ⟨f, fs⟩⟩ := p
  · rfl
  · rfl
  · have hm : unmarshalMap nf (marshal nf (.object (f :: fs))) = .ok (f :: fs) := by
      rw [unmarshalMap, unmarshalAny_marshal nf _ hv]
    simp only [getValues, getValuesFrom, requestAppDeployment, DeploymentRequestPayload.sent, sentValues,
      Option.map_eq_map, Option.map_some', hm, Option.getD_some, mergeMaps_of_sorted [] _ hv.1, List.nil_append]

/-- Each body the backend publishes reaches the operator's handler of its kind
with the payload published, field for field, but for an empty values map, which
arrives as none; and the values of a record created from a request are the map
published, none read as an empty one. -/
theorem published_payload_handled (c : Cluster) (now : T) (p : DeploymentRequestPayload N)
    (q : DeploymentUpdatePayload N) (d : DeploymentDeletePayload) (hp : ValuesAny p.values)
    (hq : ValuesAny q.values) :
    handleMessage nf tf c (publishDeploymentRequest nf tf p now) = handleDeploymentRequest nf c p.sent ∧
      handleMessage nf tf c (publishDeploymentUpdate nf tf q now) = handleDeploymentUpdate nf c q.sent ∧
      handleMessage nf tf c (publishDeploymentDelete nf tf d now) = handleDeploymentDelete c d ∧
      ∀ c' faults name, getValues nf c' faults (requestAppDeployment nf p.sent name) = .ok (p.values.getD []) :=
  ⟨handleMessage_publishDeploymentRequest nf tf c p now hp, handleMessage_publishDeploymentUpdate nf tf c q now hq,
    handleMessage_publishDeploymentDelete nf tf c d now,
    fun c' faults name ↦ getValues_requestAppDeployment nf c' faults p hp name⟩

def zeroTimeText : List Char := "0001-01-01T00:00:00Z".toList

theorem zeroTimeText_plain :
    ∀ c ∈ zeroTimeText, c.isDigit ∨ c = '-' ∨ c = ':' ∨ c = '.' ∨ c = 'T' ∨ c = 'Z' ∨ c = '+' := by
  decide

def zeroTime : TimeFormat Unit where
  zero := ()
  format _ := zeroTimeText
  parse cs := if cs = zeroTimeText then .ok () else .error "parsing time"
  parse_format _ := if_pos rfl
  format_plain _ := zeroTimeText_plain

def replicasRequest : DeploymentRequestPayload Nat :=
  ⟨"0d1f7a52-3c4b-4e8a-9f60-2b7c1d9e8a41", "team-a", "user-1", "postgresql", "team-a", "db", "",
    some [("replicas", .number 2)]⟩

def clearValuesUpdate : DeploymentUpdatePayload Nat :=
  ⟨"7e2c9b14-5a3d-4f61-8e0b-c4d2a1f93b67", "team-a", "user-1", "db", "team-a", "", some []⟩

def dbDeletePayload : DeploymentDeletePayload :=
  ⟨"5c0e2b7a-9d14-4f3e-8a26-7b1c9e0d3f58", "team-a", "user-1", "db", "team-a"⟩

def fractionRequest : DeploymentRequestPayload NumberLiteral :=
  ⟨"0d1f7a52-3c4b-4e8a-9f60-2b7c1d9e8a41", "team-a", "user-1", "postgresql", "team-a", "db", "",
    some [("cpu", .number ⟨"0.5".toList, rfl⟩), ("maxBytes", .number ⟨"1e+21".toList, rfl⟩)]⟩

def fractionUpdate : DeploymentUpdatePayload NumberLiteral :=
  ⟨"7e2c9b14-5a3d-4f61-8e0b-c4d2a1f93b67", "team-a", "user-1", "db", "team-a", "",
    some [("cpu", .number ⟨"2.5e-7".toList, rfl⟩)]⟩

theorem fraction_payload_handled :
    ValuesAny fractionRequest.values ∧ ValuesAny fractionUpdate.values ∧
      handleMessage literalFormat zeroTime (Cluster.empty ["team-a"])
          (publishDeploymentRequest literalFormat zeroTime fractionRequest ()) =
        handleDeploymentRequest literalFormat (Cluster.empty ["team-a"]) fractionRequest.sent ∧
      handleMessage literalFormat zeroTime (Cluster.empty ["team-a"])
          (publishDeploymentUpdate literalFormat zeroTime fractionUpdate ()) =
        handleDeploymentUpdate literalFormat (Cluster.empty ["team-a"]) fractionUpdate.sent ∧
      handleMessage literalFormat zeroTime (Cluster.empty ["team-a"])
          (publishDeploymentDelete literalFormat zeroTime dbDeletePayload ()) =
        handleDeploymentDelete (Cluster.empty ["team-a"]) dbDeletePayload ∧
      ∀ c' faults name, getValues literalFormat c' faults (requestAppDeployment literalFormat fractionRequest.sent name) =
        .ok (fractionRequest.values.getD []) :=
  have hp : ValuesAny fractionRequest.values := ⟨List.pairwise_pair.2 (String.lt_iff_toList_lt.2 (by decide)), trivial, trivial, trivial⟩
  have hq : ValuesAny fractionUpdate.values := ⟨List.pairwise_singleton _ _, trivial, trivial⟩
  ⟨hp, hq, published_payload_handled literalFormat zeroTime (Cluster.empty ["team-a"]) () fractionRequest
    fractionUpdate dbDeletePayload hp hq⟩

def replicasStored : Cluster :=
  (handleDeploymentRequest decimalFormat (Cluster.empty ["team-a"]) replicasRequest).2

theorem clear_values_update_dropped :
    clearValuesUpdate.values = some [] ∧
      ((handleMessage decimalFormat zeroTime replicasStored
        (publishDeploymentUpdate decimalFormat zeroTime clearValuesUpdate ())).2.appDeployments ⟨"team-a", "db"⟩).map
          (·.spec.values) = some (some "\x7b\"replicas\":2\x7d".toList) ∧
      ((handleDeploymentUpdate decimalFormat replicasStored clearValuesUpdate).2.appDeployments ⟨"team-a", "db"⟩).map
          (·.spec.values) = some (some "\x7b\x7d".toList) := by
  refine ⟨rfl, ?_, by decide⟩
  rw [handleMessage_publishDeploymentUpdate decimalFormat zeroTime _ clearValuesUpdate () ⟨List.Pairwise.nil, trivial⟩]
  decide

end Appstore.Rabbitmq
